import AmdBundle.Proofs.Resolver.Cache

/-!
# AmdBundle.Proofs.Resolver.Place — requests told apart by where they are looked for

The first location at which the file for a request is looked for (`place?`) can be seen from
outside: in a file system in which everything is a file and one location is the odd one out, the
request gets the odd file exactly if it is looked for there (`fileAfter_singleOut`).  So requests
that have one file in every file system are looked for at one place (`place?_eq_of_fileAfter`).
-/

namespace AmdBundle
namespace FileResolver

open Text

variable {files : FileResolver} {fs : FileSystem} {data other : ResolveData} {name : String}

def pathPart {π : Type} (data : ResolveData π) : String :=
  (RequestParts.ofRequest data.request).specifier

/-- Where the file for a request is looked for first. -/
def place? (files : FileResolver) (data : ResolveData) : Option Location :=
  if (pathPart data).isEmpty then none
  else (files.targetPath (pathPart data) data.context).toOption.map Location.ofText

/-! ### The odd file out -/

/-- Everything is a file, and one location is not the same file as the others. -/
def singleOut (location : Location) : FileSystem :=
  .ofLocations (fun _ => true) (fun _ => false) fun other =>
    .ok (if other = location then "/here" else "/elsewhere")

theorem fileAfter_singleOut (location : Location) (earlier : List ResolveData) :
    files.fileAfter (singleOut location) earlier data =
      (files.place? data).map fun place => if place = location then "/here" else "/elsewhere" := by
  rw [fileAfter_eq, place?]
  show (if (pathPart data).isEmpty then none
    else (files.findResource (singleOut location) (pathPart data) data.context).toOption) = _
  split
  · rfl
  · rw [toOption_findResource]
    cases files.targetPath (pathPart data) data.context with
    | error error => rfl
    | ok target => rfl

/-- Requests with one file in every file system are looked for at one place. -/
theorem place?_eq_of_fileAfter
    (h : ∀ fs, files.fileAfter fs [] data = files.fileAfter fs [] other) :
    files.place? data = files.place? other := by
  cases hdata : files.place? data with
  | none =>
    have hnone := h (singleOut ⟨true, [], false⟩)
    rw [fileAfter_singleOut, fileAfter_singleOut, hdata] at hnone
    exact (Option.map_eq_none_iff.mp hnone.symm).symm
  | some location =>
    have hhere := h (singleOut location)
    rw [fileAfter_singleOut, fileAfter_singleOut, hdata, Option.map_some, if_pos rfl] at hhere
    obtain ⟨place, hplace, hname⟩ := Option.map_eq_some_iff.mp hhere.symm
    by_cases hsame : place = location
    · rw [hplace, hsame]
    · rw [if_neg hsame] at hname
      exact absurd hname (by decide)

/-! ### Plain names -/

/-- A path part that no resolver takes apart: one segment that names something. -/
structure IsPlainName (name : String) : Prop where
  ne_empty : name ≠ ""
  not_dotted : isDotted name = false
  not_absolute : FilePath.isAbsolute name = false
  one_segment : splitOn '/' name.toList = [name.toList]
  not_idle : FilePath.isIdle name.toList = false
  not_up : name.toList ≠ ['.', '.']

theorem IsPlainName.tailSteps (h : IsPlainName name) :
    Location.tailSteps (splitOn '/' name.toList) = [.down name] := by
  rw [h.one_segment]
  simp [Location.tailSteps, Location.stepOf?, h.not_idle, h.not_up]

theorem IsPlainName.endsIdle (h : IsPlainName name) :
    Location.endsIdle (splitOn '/' name.toList) = false := by
  rw [h.one_segment]
  exact h.not_idle

theorem place?_baseDir {dir : String} (hne : pathPart data ≠ "")
    (hdotted : isDotted (pathPart data) = false)
    (habsolute : FilePath.isAbsolute (pathPart data) = false) :
    place? ⟨[], some dir⟩ data = some (Location.ofText (FilePath.join dir (pathPart data))) := by
  rw [place?, if_neg (by simpa using hne), targetPath, hdotted, habsolute,
    if_neg Bool.false_ne_true, if_neg Bool.false_ne_true]
  rfl

/-- A path that leads from a directory to where a plain name does is that name, if it is not taken
against another directory. -/
theorem eq_of_ofText_join (hname : IsPlainName name) {dir path : String} (hdir : dir ≠ "")
    (hdotted : isDotted path = false) (habsolute : FilePath.isAbsolute path = false)
    (h : Location.ofText (FilePath.join dir path) = Location.ofText (FilePath.join dir name)) :
    path = name := by
  rw [Location.ofText_join hdir habsolute, Location.ofText_join hdir hname.not_absolute,
    hname.tailSteps, hname.endsIdle, Location.mk.injEq] at h
  obtain ⟨-, hsteps, hend⟩ := h
  obtain ⟨idle, hsplit, hidle⟩ :=
    Location.splitOn_of_tailSteps (List.append_cancel_left hsteps) hend
  have hpath := join_splitOn '/' path.toList
  rw [hsplit] at hpath
  cases idle with
  | nil => exact String.toList_inj.mp hpath.symm
  | cons first idle =>
    -- an idle segment in front makes the path absolute or dotted
    rw [List.cons_append, join_cons '/' first (by simp)] at hpath
    have hfirst : first = [] ∨ first = ['.'] := by
      simpa [FilePath.isIdle] using hidle first List.mem_cons_self
    rcases hfirst with rfl | rfl
    · simp [FilePath.isAbsolute, ← hpath] at habsolute
    · simp [isDotted, startsWith, ← hpath] at hdotted

theorem pathPart_eq_of_place? (hname : IsPlainName name) (hdata : pathPart data = name)
    (h : ∀ files : FileResolver, files.place? data = files.place? other) :
    pathPart other = name := by
  have hbelow : ∀ dir, place? ⟨[], some dir⟩ other =
      some (Location.ofText (FilePath.join dir name)) := by
    intro dir
    rw [← h, place?_baseDir (hdata ▸ hname.ne_empty) (hdata ▸ hname.not_dotted)
      (hdata ▸ hname.not_absolute), hdata]
  -- what is not looked for below the base directory is not told to look for it elsewhere
  have hmoves : place? ⟨[], some "a"⟩ other ≠ place? ⟨[], some "b"⟩ other := by
    rw [hbelow, hbelow, Location.ofText_join (by decide) hname.not_absolute,
      Location.ofText_join (by decide) hname.not_absolute, hname.tailSteps]
    intro heq
    simp only [Option.some.injEq, Location.mk.injEq] at heq
    have hsteps := List.append_cancel_right heq.2.1
    exact absurd hsteps (by decide)
  have hne : pathPart other ≠ "" := by
    intro hempty
    exact hmoves (by simp [place?, hempty])
  have hdotted : isDotted (pathPart other) = false := by
    cases hdots : isDotted (pathPart other) with
    | false => rfl
    | true => exact absurd (by simp [place?, targetPath, hdots]) hmoves
  have habsolute : FilePath.isAbsolute (pathPart other) = false := by
    cases hroot : FilePath.isAbsolute (pathPart other) with
    | false => rfl
    | true => exact absurd (by simp [place?, targetPath, hroot]) hmoves
  have hdir : "a" ≠ "" := by decide
  refine eq_of_ofText_join hname hdir hdotted habsolute ?_
  exact Option.some.inj ((place?_baseDir hne hdotted habsolute).symm.trans (hbelow "a"))

/-! ### One path part -/

/-- Two requests with one path part have one file if the path part is not taken against the
directory, or leads to one location from both. -/
theorem fileAfter_congr (hpart : pathPart data = pathPart other)
    (hdir : isDotted (pathPart data) = true →
      Location.ofText (FilePath.join data.context (pathPart data)) =
        Location.ofText (FilePath.join other.context (pathPart data)))
    (earlier earlier' : List ResolveData) :
    files.fileAfter fs earlier data = files.fileAfter fs earlier' other := by
  rw [fileAfter_eq, fileAfter_eq]
  show (if (pathPart data).isEmpty then none
    else (files.findResource fs (pathPart data) data.context).toOption) =
      if (pathPart other).isEmpty then none
      else (files.findResource fs (pathPart other) other.context).toOption
  rw [← hpart]
  split
  · rfl
  · cases hdotted : isDotted (pathPart data) with
    | false => exact toOption_findResource_of_not_isDotted hdotted
    | true => exact toOption_findResource_of_location_join hdotted (hdir hdotted)

theorem ofText_join_eq_of_place? (hpart : pathPart data = pathPart other)
    (hdotted : isDotted (pathPart data) = true) (hne : pathPart data ≠ "")
    (h : files.place? data = files.place? other) :
    Location.ofText (FilePath.join data.context (pathPart data)) =
      Location.ofText (FilePath.join other.context (pathPart data)) := by
  rw [place?, place?, ← hpart, if_neg (by simpa using hne), if_neg (by simpa using hne),
    targetPath_of_isDotted hdotted, targetPath_of_isDotted hdotted] at h
  exact Option.some.inj h

end FileResolver
end AmdBundle
