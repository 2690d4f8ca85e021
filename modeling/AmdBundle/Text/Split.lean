/-!
# AmdBundle.Text.Split — texts cut at a separator

Module ids, loader requests and paths are all lists of parts written with one separator between
them.

`splitOn` and `join` are inverse (`join_splitOn`, and `splitOn_join` for parts without the
separator), and there is always at least one part.
-/

namespace AmdBundle
namespace Text

/-- The parts between the separators, one more than there are separators. -/
def splitOn (sep : Char) : List Char → List (List Char)
  | [] => [[]]
  | c :: cs =>
    if c = sep then [] :: splitOn sep cs
    else
      match splitOn sep cs with
      | [] => [[c]]
      | part :: parts => (c :: part) :: parts

/-- The parts written one after the other with `sep` between them. -/
def join (sep : Char) : List (List Char) → List Char
  | [] => []
  | [part] => part
  | part :: next :: parts => part ++ sep :: join sep (next :: parts)

theorem splitOn_ne_nil (sep : Char) (cs : List Char) : splitOn sep cs ≠ [] := by
  cases cs with
  | nil => simp [splitOn]
  | cons c cs =>
    rw [splitOn]
    split
    · simp
    · split <;> simp

theorem join_cons (sep : Char) (part : List Char) {parts : List (List Char)} (h : parts ≠ []) :
    join sep (part :: parts) = part ++ sep :: join sep parts := by
  cases parts with
  | nil => exact absurd rfl h
  | cons next parts => rfl

theorem join_splitOn (sep : Char) (cs : List Char) : join sep (splitOn sep cs) = cs := by
  induction cs with
  | nil => rfl
  | cons c cs ih =>
    rw [splitOn]
    split
    · rename_i h
      rw [join_cons sep [] (splitOn_ne_nil sep cs), ih, h]
      rfl
    · split
      · rename_i h
        exact absurd h (splitOn_ne_nil sep cs)
      · rename_i part parts h
        rw [h] at ih
        cases parts with
        | nil => simp only [join] at ih ⊢; rw [ih]
        | cons next parts => simp only [join, List.cons_append] at ih ⊢; rw [ih]

theorem not_mem_of_mem_splitOn {sep : Char} {cs part : List Char} (h : part ∈ splitOn sep cs) :
    sep ∉ part := by
  induction cs generalizing part with
  | nil => simp only [splitOn, List.mem_singleton] at h; simp [h]
  | cons c cs ih =>
    rw [splitOn] at h
    split at h
    · rcases List.mem_cons.mp h with rfl | h
      · simp
      · exact ih h
    · rename_i hc
      split at h
      · rw [List.mem_singleton.mp h]
        simp [Ne.symm hc]
      · rename_i first rest hs
        rw [hs] at ih
        rcases List.mem_cons.mp h with rfl | h
        · simp [Ne.symm hc, ih List.mem_cons_self]
        · exact ih (List.mem_cons_of_mem _ h)

theorem splitOn_of_not_mem {sep : Char} {cs : List Char} (h : sep ∉ cs) :
    splitOn sep cs = [cs] := by
  induction cs with
  | nil => rfl
  | cons c cs ih =>
    simp only [List.mem_cons, not_or] at h
    rw [splitOn, if_neg (Ne.symm h.1), ih h.2]

theorem splitOn_append_cons {sep : Char} {part : List Char} (h : sep ∉ part) (cs : List Char) :
    splitOn sep (part ++ sep :: cs) = part :: splitOn sep cs := by
  induction part with
  | nil => simp [splitOn]
  | cons c part ih =>
    simp only [List.mem_cons, not_or] at h
    rw [List.cons_append, splitOn, if_neg (Ne.symm h.1), ih h.2]

/-- The parts around a separator are those of what is before it and of what is behind it. -/
theorem splitOn_append_sep (sep : Char) (cs ds : List Char) :
    splitOn sep (cs ++ sep :: ds) = splitOn sep cs ++ splitOn sep ds := by
  induction cs with
  | nil => simp [splitOn]
  | cons c cs ih =>
    rw [List.cons_append, splitOn, splitOn, ih]
    by_cases hc : c = sep
    · rw [if_pos hc, if_pos hc, List.cons_append]
    · rw [if_neg hc, if_neg hc]
      cases hs : splitOn sep cs with
      | nil => exact absurd hs (splitOn_ne_nil sep cs)
      | cons part parts => rfl

theorem splitOn_join {sep : Char} {parts : List (List Char)} (hne : parts ≠ [])
    (h : ∀ part ∈ parts, sep ∉ part) :
    splitOn sep (join sep parts) = parts := by
  induction parts with
  | nil => exact absurd rfl hne
  | cons part parts ih =>
    cases parts with
    | nil => exact splitOn_of_not_mem (h part List.mem_cons_self)
    | cons next parts =>
      rw [join, splitOn_append_cons (h part List.mem_cons_self),
        ih (List.cons_ne_nil _ _) fun p hp => h p (List.mem_cons_of_mem _ hp)]

def split (sep : Char) (text : String) : List String :=
  (splitOn sep text.toList).map String.ofList

theorem split_of_not_mem {sep : Char} {text : String} (h : sep ∉ text.toList) :
    split sep text = [text] := by
  rw [split, splitOn_of_not_mem h, List.map_singleton, String.ofList_toList]

def joinWith (sep : Char) (parts : List String) : String :=
  String.ofList (join sep (parts.map String.toList))

/-- Every `old` becomes `new`. -/
def replaceChar (old new : Char) (text : String) : String :=
  String.ofList (text.toList.map fun c => if c = old then new else c)

def startsWith (text start : String) : Bool :=
  start.toList.isPrefixOf text.toList

def endsWith (text tail : String) : Bool :=
  tail.toList.isSuffixOf text.toList

/-- What follows `start` in `text`, if `text` begins with it. -/
def dropStart? (text start : String) : Option String :=
  (start.toList.isPrefixOf? text.toList).map String.ofList

theorem isPrefixOf?_eq_some_iff {start cs rest : List Char} :
    start.isPrefixOf? cs = some rest ↔ cs = start ++ rest := by
  induction start generalizing cs with
  | nil =>
    have hstep : [].isPrefixOf? cs = some cs := rfl
    simp [hstep]
  | cons c start ih =>
    cases cs with
    | nil =>
      have hstep : (c :: start).isPrefixOf? [] = none := rfl
      simp [hstep]
    | cons d cs =>
      have hstep : (c :: start).isPrefixOf? (d :: cs) =
          if c == d then start.isPrefixOf? cs else none := rfl
      rw [hstep]
      by_cases h : c = d
      · subst h
        simp [ih]
      · simp [h, Ne.symm h]

def hasChar (c : Char) (text : String) : Bool :=
  text.toList.contains c

end Text
end AmdBundle
