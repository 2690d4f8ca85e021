import AmdBundle.ModuleId
import AmdBundle.Proofs.Text.Separators

/-!
# AmdBundle.Proofs.ModuleId.Sibling — ids beside a module

An id beside a module goes on from the segments of the module's directory (`siblingPath_eq`): what
is in it is in the directory or in the id (`mem_siblingPath`), and an id that goes one step down
keeps the whole directory (`mem_siblingPath_down`).
-/

namespace AmdBundle
namespace ModuleId

open Text

def segments (path : String) : List (List Char) :=
  splitOn '/' (path.toList.map fun c => if c = '\\' then '/' else c)

def directory (reference : String) : String :=
  compactPath (reference ++ "/..")

theorem compactPath_eq (path : String) :
    compactPath path = String.ofList (join '/' (compactSegments (segments path))) := rfl

/-- The segments of the directory of a module, last one first. -/
def directorySegments (reference : String) : List (List Char) :=
  pushSegment ((segments reference).foldl pushSegment []) ['.', '.']

theorem segments_append_slash (before behind : String) :
    segments (before ++ "/" ++ behind) = segments before ++ segments behind := by
  have hlist : (before ++ "/" ++ behind).toList.map (fun c => if c = '\\' then '/' else c) =
      before.toList.map (fun c => if c = '\\' then '/' else c) ++
        '/' :: behind.toList.map (fun c => if c = '\\' then '/' else c) := by
    simp
  rw [segments, hlist, splitOn_append_sep]
  rfl

theorem directory_eq (reference : String) :
    directory reference = String.ofList (join '/' (directorySegments reference).reverse) := by
  have happend : reference ++ "/.." = reference ++ "/" ++ ".." := by
    rw [String.append_assoc]
    rfl
  rw [directory, compactPath_eq, happend, segments_append_slash, compactSegments,
    List.foldl_append]
  rfl

/-- An id beside a module goes on from the directory of the module. -/
theorem siblingPath_eq (reference id : String) :
    siblingPath reference id = String.ofList (join '/'
      ((segments id).foldl pushSegment (directorySegments reference)).reverse) := by
  have happend : reference ++ "/../" ++ id = reference ++ "/" ++ ".." ++ "/" ++ id := by
    have hmid : ("/../" : String) = "/" ++ ".." ++ "/" := rfl
    rw [hmid]
    simp only [String.append_assoc]
  rw [siblingPath, compactPath_eq, happend, segments_append_slash, segments_append_slash,
    compactSegments, List.foldl_append, List.foldl_append]
  rfl

/-! ### What the segments are made of -/

theorem mem_of_mem_pushSegment {kept : List (List Char)} {segment part : List Char}
    (h : part ∈ pushSegment kept segment) : part ∈ kept ∨ part = segment := by
  unfold pushSegment at h
  split at h
  · exact .inl h
  · split at h
    · cases kept with
      | nil => exact .inr (List.mem_singleton.mp h)
      | cons last rest =>
        dsimp only at h
        split at h
        · rcases List.mem_cons.mp h with rfl | h
          · exact .inr rfl
          · exact .inl h
        · exact .inl (List.mem_cons_of_mem _ h)
    · rcases List.mem_cons.mp h with rfl | h
      · exact .inr rfl
      · exact .inl h

theorem mem_of_mem_foldl_pushSegment {segments kept : List (List Char)} {part : List Char}
    (h : part ∈ segments.foldl pushSegment kept) : part ∈ kept ∨ part ∈ segments := by
  induction segments generalizing kept with
  | nil => exact .inl h
  | cons segment segments ih =>
    rcases ih h with hkept | hrest
    · rcases mem_of_mem_pushSegment hkept with hkept | rfl
      · exact .inl hkept
      · exact .inr List.mem_cons_self
    · exact .inr (List.mem_cons_of_mem _ hrest)

theorem mem_of_mem_segments {path : String} {part : List Char} {c : Char}
    (hpart : part ∈ segments path) (hc : c ∈ part) : c ∈ path.toList := by
  have hne : c ≠ '/' := by
    rintro rfl
    exact not_mem_of_mem_splitOn hpart hc
  obtain ⟨d, hd, hmap⟩ := List.mem_map.mp (mem_of_mem_splitOn hpart hc)
  split at hmap
  · exact absurd hmap.symm hne
  · rwa [← hmap]

section Characters

variable {reference id path : String} {c : Char}

theorem mem_of_mem_compactPath (hc : c ≠ '/') (h : c ∈ (compactPath path).toList) :
    c ∈ path.toList := by
  rw [compactPath_eq, String.toList_ofList, mem_join_iff hc] at h
  obtain ⟨part, hpart, hmem⟩ := h
  rcases mem_of_mem_foldl_pushSegment (List.mem_reverse.mp hpart) with hnil | hsegment
  · simp at hnil
  · exact mem_of_mem_segments hsegment hmem

theorem mem_directory_iff (hc : c ≠ '/') :
    c ∈ (directory reference).toList ↔ ∃ part ∈ directorySegments reference, c ∈ part := by
  rw [directory_eq, String.toList_ofList, mem_join_iff hc]
  simp

theorem mem_siblingPath (hc : c ≠ '/') (h : c ∈ (siblingPath reference id).toList) :
    c ∈ (directory reference).toList ∨ c ∈ id.toList := by
  rw [siblingPath_eq, String.toList_ofList, mem_join_iff hc] at h
  obtain ⟨part, hpart, hmem⟩ := h
  rcases mem_of_mem_foldl_pushSegment (List.mem_reverse.mp hpart) with hkept | hsegment
  · exact .inl ((mem_directory_iff hc).mpr ⟨part, hkept, hmem⟩)
  · exact .inr (mem_of_mem_segments hsegment hmem)

theorem mem_siblingPath_down (hc : c ≠ '/') (h : c ∈ (directory reference).toList)
    {name : List Char} (hid : segments id = [['.'], name]) (hdot : name ≠ ['.'])
    (hdots : name ≠ ['.', '.']) : c ∈ (siblingPath reference id).toList := by
  obtain ⟨part, hpart, hmem⟩ := (mem_directory_iff hc).mp h
  rw [siblingPath_eq, hid, String.toList_ofList, mem_join_iff hc]
  refine ⟨part, ?_, hmem⟩
  simp [pushSegment, hdot, hdots, hpart]

end Characters

end ModuleId
end AmdBundle
