import AmdBundle.Proofs.ModuleId.Sibling

/-!
# AmdBundle.Proofs.ModuleId.Compact — paths from which nothing is cancelled

Cancelling leaves segments of a certain form (`IsCompact`): there is no `.` among them, and a `..`
has only `..` before it.  In such segments there is nothing to cancel
(`compactSegments_of_isCompact`), so compacting a path twice is compacting it once
(`compactPath_compactPath`).
-/

namespace AmdBundle
namespace ModuleId

open Text

/-- Segments from which nothing is cancelled. -/
structure IsCompact (segments : List (List Char)) : Prop where
  no_dot : ['.'] ∉ segments
  dots_first : segments.Pairwise fun before behind => behind = ['.', '.'] → before = ['.', '.']

variable {kept parts : List (List Char)} {segment : List Char} {path : String}

theorem isCompact_nil : IsCompact [] := ⟨by simp, List.Pairwise.nil⟩

theorem IsCompact.of_append {behind : List (List Char)} (h : IsCompact (parts ++ behind)) :
    IsCompact parts :=
  ⟨fun hmem => h.no_dot (List.mem_append_left _ hmem), (List.pairwise_append.mp h.dots_first).1⟩

theorem isCompact_concat_iff :
    IsCompact (parts ++ [segment]) ↔
      IsCompact parts ∧ segment ≠ ['.'] ∧
        (segment = ['.', '.'] → ∀ part ∈ parts, part = ['.', '.']) := by
  constructor
  · intro h
    refine ⟨h.of_append, ?_, fun hdots part hpart => ?_⟩
    · rintro rfl
      exact h.no_dot (List.mem_append_right _ List.mem_cons_self)
    · exact (List.pairwise_append.mp h.dots_first).2.2 part hpart segment List.mem_cons_self hdots
  · rintro ⟨h, hdot, hdots⟩
    refine ⟨?_, List.pairwise_append.mpr ⟨h.dots_first, List.pairwise_singleton _ _, ?_⟩⟩
    · rw [List.mem_append, List.mem_singleton]
      rintro (hmem | hsegment)
      · exact h.no_dot hmem
      · exact hdot hsegment.symm
    · intro part hpart other hother
      rw [List.mem_singleton.mp hother]
      exact fun hsegment => hdots hsegment part hpart

/-! ### Cancelling leaves compact segments -/

theorem IsCompact.pushSegment (h : IsCompact kept.reverse) (segment : List Char) :
    IsCompact (pushSegment kept segment).reverse := by
  unfold ModuleId.pushSegment
  split
  · exact h
  · rename_i hdot
    split
    · rename_i hdots
      cases kept with
      | nil =>
        show IsCompact ([] ++ [segment])
        exact isCompact_concat_iff.mpr ⟨isCompact_nil, hdot, by simp⟩
      | cons last rest =>
        rw [List.reverse_cons] at h
        dsimp only
        split
        · -- what is kept ends in `..`, so all of it is `..`
          rename_i hlast
          have hall := (isCompact_concat_iff.mp h).2.2 hlast
          rw [List.reverse_cons, List.reverse_cons]
          refine isCompact_concat_iff.mpr ⟨h, hdot, fun _ part hpart => ?_⟩
          rcases List.mem_append.mp hpart with hbefore | hself
          · exact hall part hbefore
          · rw [List.mem_singleton.mp hself, hlast]
        · exact h.of_append
    · rename_i hname
      rw [List.reverse_cons]
      exact isCompact_concat_iff.mpr ⟨h, hdot, fun hdots => absurd hdots hname⟩

theorem IsCompact.foldl_pushSegment (h : IsCompact kept.reverse) (segments : List (List Char)) :
    IsCompact (segments.foldl ModuleId.pushSegment kept).reverse := by
  induction segments generalizing kept with
  | nil => exact h
  | cons segment segments ih => exact ih (h.pushSegment segment)

theorem isCompact_compactSegments (segments : List (List Char)) :
    IsCompact (compactSegments segments) := by
  have hnil : IsCompact ([] : List (List Char)).reverse := isCompact_nil
  exact hnil.foldl_pushSegment segments

/-! ### Nothing is cancelled from compact segments -/

theorem pushSegment_of_isCompact (h : IsCompact (kept.reverse ++ [segment])) :
    pushSegment kept segment = segment :: kept := by
  obtain ⟨-, hdot, hdots⟩ := isCompact_concat_iff.mp h
  unfold pushSegment
  rw [if_neg hdot]
  split
  · rename_i hsegment
    cases kept with
    | nil => rw [hsegment]
    | cons last rest =>
      have hlast : last = ['.', '.'] := hdots hsegment last (by simp)
      exact if_pos hlast
  · rfl

theorem foldl_pushSegment_of_isCompact (h : IsCompact (kept.reverse ++ parts)) :
    parts.foldl pushSegment kept = parts.reverse ++ kept := by
  induction parts generalizing kept with
  | nil => rfl
  | cons part parts ih =>
    have hsplit : kept.reverse ++ part :: parts = kept.reverse ++ [part] ++ parts := by simp
    rw [hsplit] at h
    rw [List.foldl_cons, pushSegment_of_isCompact h.of_append, ih (by rwa [List.reverse_cons])]
    simp

theorem compactSegments_of_isCompact (h : IsCompact parts) : compactSegments parts = parts := by
  rw [compactSegments, foldl_pushSegment_of_isCompact (by exact h)]
  simp

/-! ### Paths -/

theorem not_mem_of_mem_segments {part : List Char} (h : part ∈ segments path) :
    '/' ∉ part ∧ '\\' ∉ part := by
  refine ⟨not_mem_of_mem_splitOn h, fun hback => ?_⟩
  obtain ⟨c, -, hc⟩ := List.mem_map.mp (mem_of_mem_splitOn h hback)
  split at hc
  · exact absurd hc (by decide)
  · contradiction

theorem segments_join (hne : parts ≠ []) (h : ∀ part ∈ parts, '/' ∉ part ∧ '\\' ∉ part) :
    segments (String.ofList (join '/' parts)) = parts := by
  have hback : '\\' ∉ join '/' parts := by
    rw [mem_join_iff (by decide)]
    rintro ⟨part, hpart, hmem⟩
    exact (h part hpart).2 hmem
  have hkept : (join '/' parts).map (fun c => if c = '\\' then '/' else c) = join '/' parts := by
    refine (List.map_congr_left fun c hc => if_neg ?_).trans (List.map_id _)
    rintro rfl
    exact hback hc
  rw [segments, String.toList_ofList, hkept, splitOn_join hne fun part hpart => (h part hpart).1]

def pathOf (parts : List (List Char)) : String :=
  String.ofList (join '/' parts)

theorem compactPath_pathOf (h : ∀ part ∈ parts, '/' ∉ part ∧ '\\' ∉ part) :
    compactPath (pathOf parts) = pathOf (compactSegments parts) := by
  cases parts with
  | nil => decide
  | cons part parts => rw [compactPath_eq, pathOf, segments_join (List.cons_ne_nil _ _) h, pathOf]

theorem not_mem_of_mem_compactSegments {part : List Char}
    (h : part ∈ compactSegments (segments path)) : '/' ∉ part ∧ '\\' ∉ part := by
  rcases mem_of_mem_foldl_pushSegment (List.mem_reverse.mp h) with hnil | hsegment
  · exact absurd hnil List.not_mem_nil
  · exact not_mem_of_mem_segments hsegment

theorem compactPath_compactPath (path : String) :
    compactPath (compactPath path) = compactPath path :=
  calc compactPath (compactPath path)
      = pathOf (compactSegments (compactSegments (segments path))) :=
        compactPath_pathOf fun _ => not_mem_of_mem_compactSegments
    _ = compactPath path := by
        rw [compactSegments_of_isCompact (isCompact_compactSegments _)]
        rfl

end ModuleId
end AmdBundle
