import AmdBundle.FilePath

/-!
# AmdBundle.Proofs.FilePath.Join — where a joined path leads

A path behind a directory takes the steps of its segments from where the directory is
(`ofText_join`).  So two texts for one directory lead a path to one location
(`ofText_join_congr`), and a path that begins with a dot segment leads to one location from two
directories only if every path with that segment in front does (`ofText_join_append`).
-/

namespace AmdBundle

namespace FilePath

section Relative

variable {path : String} (hne : path ≠ "") (hrelative : isAbsolute path = false)

include hne hrelative

theorem isAbsolute_append (rest : String) : isAbsolute (path ++ rest) = false := by
  cases hcs : path.toList with
  | nil => exact absurd (String.toList_inj.mp hcs) hne
  | cons c cs => simpa [isAbsolute, hcs] using hrelative

theorem join_append (dir rest : String) : join dir (path ++ rest) = join dir path ++ rest := by
  rw [join, join, isAbsolute_append hne hrelative, hrelative, if_neg Bool.false_ne_true,
    if_neg Bool.false_ne_true]
  split <;> simp only [String.append_assoc]

theorem join_ne_empty (dir : String) : join dir path ≠ "" := by
  rw [join, hrelative, if_neg Bool.false_ne_true]
  split <;> simp [hne]

end Relative

end FilePath

namespace Location

open Text

def startSteps (first : List Char) : List Step :=
  if first = [] then [] else if first = ['.'] then [.stay] else (stepOf? first).toList

def tailSteps (segments : List (List Char)) : List Step :=
  segments.filterMap stepOf?

/-- Whether a path whose last segments these are must end at a directory. -/
def endsIdle (segments : List (List Char)) : Bool :=
  (segments.getLast?.map FilePath.isIdle).getD false

theorem stepOf?_eq_none_iff {segment : List Char} :
    stepOf? segment = none ↔ FilePath.isIdle segment = true := by
  rw [stepOf?]
  by_cases hidle : FilePath.isIdle segment = true
  · simp [hidle]
  · rw [if_neg hidle]
    split <;> simp [hidle]

theorem eq_of_stepOf? {segment : List Char} {name : String}
    (h : stepOf? segment = some (.down name)) : segment = name.toList := by
  rw [stepOf?] at h
  split at h
  · simp at h
  · split at h
    · simp at h
    · obtain rfl : String.ofList segment = name := by simpa using h
      exact String.toList_ofList.symm

@[simp] theorem tailSteps_append (xs ys : List (List Char)) :
    tailSteps (xs ++ ys) = tailSteps xs ++ tailSteps ys := List.filterMap_append

theorem endsIdle_append (xs : List (List Char)) {ys : List (List Char)} (h : ys ≠ []) :
    endsIdle (xs ++ ys) = endsIdle ys := by
  have hlast : (xs ++ ys).getLast? = ys.getLast? := by
    rw [List.getLast?_append, List.getLast?_eq_some_getLast h, Option.some_or]
  rw [endsIdle, hlast, endsIdle]

theorem ofText_of_splitOn {path : String} {first : List Char} {rest : List (List Char)}
    (h : splitOn '/' path.toList = first :: rest) :
    ofText path =
      ⟨first.isEmpty && !rest.isEmpty, startSteps first ++ tailSteps rest, endsIdle rest⟩ := by
  rw [ofText, h]
  rfl

theorem absolute_ofText (path : String) : (ofText path).absolute = FilePath.isAbsolute path := by
  rw [ofText, FilePath.isAbsolute]
  cases path.toList with
  | nil => rfl
  | cons c cs =>
    rw [splitOn]
    by_cases hc : c = '/'
    · rw [if_pos hc]
      cases hs : splitOn '/' cs with
      | nil => exact absurd hs (splitOn_ne_nil _ _)
      | cons part parts => simp [hc]
    · rw [if_neg hc]
      cases splitOn '/' cs <;> simp [hc]

/-- A text behind a slash takes its steps from where the text before the slash ends. -/
theorem ofText_append_slash {before : String} (h : before ≠ "") (behind : String) :
    ofText (before ++ "/" ++ behind) =
      ⟨(ofText before).absolute,
        (ofText before).steps ++ tailSteps (splitOn '/' behind.toList),
        endsIdle (splitOn '/' behind.toList)⟩ := by
  have hne := splitOn_ne_nil '/' behind.toList
  cases hs : splitOn '/' before.toList with
  | nil => exact absurd hs (splitOn_ne_nil _ _)
  | cons first rest =>
    have hall : splitOn '/' (before ++ "/" ++ behind).toList =
        first :: (rest ++ splitOn '/' behind.toList) := by
      rw [String.toList_append, String.toList_append, List.append_assoc]
      show splitOn '/' (before.toList ++ '/' :: behind.toList) = _
      rw [splitOn_append_sep, hs, List.cons_append]
    -- a text of one empty segment is empty
    have hfirst : first.isEmpty = true → rest.isEmpty = false := by
      intro hempty
      cases rest with
      | cons next rest => rfl
      | nil =>
        have hjoin := join_splitOn '/' before.toList
        rw [hs, List.isEmpty_iff.mp hempty] at hjoin
        exact absurd (String.toList_inj.mp hjoin.symm) h
    rw [ofText_of_splitOn hall, ofText_of_splitOn hs, tailSteps_append, ← List.append_assoc,
      endsIdle_append _ hne]
    have hflag : (first.isEmpty && !(rest ++ splitOn '/' behind.toList).isEmpty) =
        (first.isEmpty && !rest.isEmpty) := by
      cases hempty : first.isEmpty with
      | false => rfl
      | true =>
        have hlong : (rest ++ splitOn '/' behind.toList).isEmpty = false := by
          simp [List.isEmpty_eq_false_iff, hne]
        rw [hfirst hempty, hlong]
    rw [hflag]

theorem ofText_slash (behind : String) :
    ofText ("/" ++ behind) =
      ⟨true, tailSteps (splitOn '/' behind.toList), endsIdle (splitOn '/' behind.toList)⟩ := by
  have hall : splitOn '/' ("/" ++ behind).toList = [] :: splitOn '/' behind.toList := by
    rw [String.toList_append]
    exact splitOn_append_sep '/' [] behind.toList
  have hlong : (splitOn '/' behind.toList).isEmpty = false :=
    List.isEmpty_eq_false_iff.mpr (splitOn_ne_nil _ _)
  rw [ofText_of_splitOn hall, hlong]
  rfl

theorem ofText_join {dir path : String} (hdir : dir ≠ "")
    (hpath : FilePath.isAbsolute path = false) :
    ofText (FilePath.join dir path) =
      ⟨(ofText dir).absolute,
        (ofText dir).steps ++ tailSteps (splitOn '/' path.toList),
        endsIdle (splitOn '/' path.toList)⟩ := by
  have hempty : dir.isEmpty = false := by simp [hdir]
  rw [FilePath.join, hpath, if_neg Bool.false_ne_true, hempty, Bool.false_or]
  by_cases hlast : dir.toList.getLast? = some '/'
  · -- the slash is there already
    obtain ⟨cs, hcs⟩ := List.getLast?_eq_some_iff.mp hlast
    obtain ⟨body, rfl⟩ : ∃ body : String, dir = body ++ "/" :=
      ⟨String.ofList cs, by rw [← String.toList_inj, hcs]; simp⟩
    rw [if_pos (by simp)]
    by_cases hbody : body = ""
    · subst hbody
      rw [String.empty_append, ofText_slash]
      rfl
    · have hdir : ofText (body ++ "/") = ofText (body ++ "/" ++ "") := by rw [String.append_empty]
      rw [ofText_append_slash hbody, hdir, ofText_append_slash hbody]
      simp [splitOn, tailSteps, stepOf?, FilePath.isIdle]
  · rw [if_neg (by simp [hlast])]
    exact ofText_append_slash hdir path

theorem splitOn_of_tailSteps {path name : String}
    (hsteps : tailSteps (splitOn '/' path.toList) = [.down name])
    (hend : endsIdle (splitOn '/' path.toList) = false) :
    ∃ idle, splitOn '/' path.toList = idle ++ [name.toList] ∧
      ∀ segment ∈ idle, FilePath.isIdle segment = true := by
  obtain ⟨idle, last, hsplit⟩ : ∃ idle last, splitOn '/' path.toList = idle ++ [last] :=
    ⟨_, _, (List.dropLast_concat_getLast (splitOn_ne_nil '/' path.toList)).symm⟩
  rw [hsplit] at hsteps hend
  have hlast : FilePath.isIdle last = false := by
    rw [endsIdle_append idle (List.cons_ne_nil _ _)] at hend
    exact hend
  rw [tailSteps_append] at hsteps
  -- the last segment takes the one step there is
  obtain ⟨step, hstep⟩ : ∃ step, stepOf? last = some step :=
    Option.ne_none_iff_exists'.mp fun hnone => by simp [stepOf?_eq_none_iff.mp hnone] at hlast
  have htail : tailSteps [last] = [step] := by simp [tailSteps, hstep]
  rw [htail] at hsteps
  have hidle : tailSteps idle = [] := by
    have hlength := congrArg List.length hsteps
    exact List.length_eq_zero_iff.mp (by simpa using hlength)
  rw [hidle, List.nil_append, List.singleton_inj] at hsteps
  refine ⟨idle, ?_, ?_⟩
  · rw [hsplit, eq_of_stepOf? (hstep.trans (congrArg some hsteps))]
  · intro segment hmem
    exact stepOf?_eq_none_iff.mp (List.filterMap_eq_nil_iff.mp hidle segment hmem)

/-! ### Two texts for one directory -/

theorem same_iff {a b : Location} :
    a.same b = true ↔ a.absolute = b.absolute ∧ a.steps = b.steps := by
  simp [same]

theorem same_self (a : Location) : a.same a = true := same_iff.mpr ⟨rfl, rfl⟩

theorem same_congr_right {a b : Location} (h : a.same b = true) (c : Location) :
    c.same a = c.same b := by
  obtain ⟨habsolute, hsteps⟩ := same_iff.mp h
  rw [same, same, habsolute, hsteps]

theorem eq_empty_of_steps {path : String} (habsolute : (ofText path).absolute = false)
    (hsteps : (ofText path).steps = []) : path = "" := by
  cases hs : splitOn '/' path.toList with
  | nil => exact absurd hs (splitOn_ne_nil _ _)
  | cons first rest =>
    rw [ofText_of_splitOn hs] at habsolute hsteps
    have hfirst : first = [] := by
      have hstart := (List.append_eq_nil_iff.mp hsteps).1
      by_cases hnil : first = []
      · exact hnil
      by_cases hdot : first = ['.']
      · rw [startSteps, if_neg hnil, if_pos hdot] at hstart
        exact absurd hstart (List.cons_ne_nil _ _)
      · rw [startSteps, if_neg hnil, if_neg hdot, Option.toList_eq_nil_iff,
          stepOf?_eq_none_iff] at hstart
        simp [FilePath.isIdle, hnil, hdot] at hstart
    have hrest : rest = [] := by simpa [hfirst] using habsolute
    have hjoin := join_splitOn '/' path.toList
    rw [hs, hfirst, hrest] at hjoin
    exact String.toList_inj.mp hjoin.symm

theorem eq_empty_of_same {path : String} (h : (ofText "").same (ofText path) = true) :
    path = "" := by
  obtain ⟨habsolute, hsteps⟩ := same_iff.mp h
  exact eq_empty_of_steps habsolute.symm hsteps.symm

theorem ofText_join_congr {a b path : String} (h : (ofText a).same (ofText b) = true)
    (hpath : FilePath.isAbsolute path = false) :
    ofText (FilePath.join a path) = ofText (FilePath.join b path) := by
  obtain ⟨habsolute, hsteps⟩ := same_iff.mp h
  by_cases ha : a = ""
  · subst ha
    rw [eq_empty_of_same h]
  · have hb : b ≠ "" := by
      rintro rfl
      exact ha (eq_empty_of_steps habsolute hsteps)
    rw [ofText_join ha hpath, ofText_join hb hpath, habsolute, hsteps]

/-! ### A path that one location is reached by from two directories -/

section Extended

variable {a b dot : String} (hdot : dot ≠ "") (hrelative : FilePath.isAbsolute dot = false)

include hdot hrelative

theorem ofText_join_slash (dir rest : String) :
    ofText (FilePath.join dir (dot ++ "/" ++ rest)) =
      ⟨(ofText (FilePath.join dir dot)).absolute,
        (ofText (FilePath.join dir dot)).steps ++ tailSteps (splitOn '/' rest.toList),
        endsIdle (splitOn '/' rest.toList)⟩ := by
  rw [String.append_assoc, FilePath.join_append hdot hrelative, ← String.append_assoc,
    ofText_append_slash (FilePath.join_ne_empty hdot hrelative dir)]

/-- If a path with a slash in it leads to one location from two directories, then so does whatever
continues it. -/
theorem ofText_join_append {rest : String}
    (h : ofText (FilePath.join a (dot ++ "/" ++ rest)) =
      ofText (FilePath.join b (dot ++ "/" ++ rest))) (more : String) :
    ofText (FilePath.join a (dot ++ "/" ++ rest ++ more)) =
      ofText (FilePath.join b (dot ++ "/" ++ rest ++ more)) := by
  rw [ofText_join_slash hdot hrelative, ofText_join_slash hdot hrelative, Location.mk.injEq] at h
  obtain ⟨habsolute, hsteps, -⟩ := h
  have hassoc : dot ++ "/" ++ rest ++ more = dot ++ "/" ++ (rest ++ more) := String.append_assoc
  rw [hassoc, ofText_join_slash hdot hrelative, ofText_join_slash hdot hrelative, habsolute,
    List.append_cancel_right hsteps]

end Extended

end Location
end AmdBundle
