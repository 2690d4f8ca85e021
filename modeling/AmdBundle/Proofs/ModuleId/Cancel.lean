import AmdBundle.Proofs.ModuleId.Compact
import Mathlib.Logic.Relation

/-!
# AmdBundle.Proofs.ModuleId.Cancel — cancelling at any place

A path is compacted from left to right.  Here a `.`, or a name and the `..` behind it, are taken
out wherever they stand (`Cancels`), in any order, until there is nothing to take out (`EndsIn`).
Taking out changes nothing of what compacting leaves (`Cancels.compactSegments_eq`), and compacting
is itself a way of taking out (`reflTransGen_compactSegments`).  So every order comes to the same
end, and that is what compacting leaves (`endsIn_iff`); `compactPath_normalForm` says it of paths.
-/

namespace AmdBundle
namespace ModuleId

open Relation Text

/-- What is left of segments when one `.`, or one name with the `..` behind it, is taken out. -/
inductive Cancels : List (List Char) → List (List Char) → Prop
  | dot (before behind : List (List Char)) :
      Cancels (before ++ ['.'] :: behind) (before ++ behind)
  | dots (before behind : List (List Char)) {name : List Char} (hdot : name ≠ ['.'])
      (hdots : name ≠ ['.', '.']) :
      Cancels (before ++ name :: ['.', '.'] :: behind) (before ++ behind)

/-- Taking out one after the other leaves `left`, and there is nothing more to take out. -/
def EndsIn (parts left : List (List Char)) : Prop :=
  ReflTransGen Cancels parts left ∧ ∀ next, ¬ Cancels left next

variable {kept parts left : List (List Char)} {name : List Char}

/-! ### One step of the compacting -/

theorem pushSegment_dot : pushSegment kept ['.'] = kept := if_pos rfl

theorem pushSegment_name (hdot : name ≠ ['.']) (hdots : name ≠ ['.', '.']) :
    pushSegment kept name = name :: kept := by
  unfold pushSegment
  rw [if_neg hdot, if_neg hdots]

theorem pushSegment_dots (hdots : name ≠ ['.', '.']) :
    pushSegment (name :: kept) ['.', '.'] = kept :=
  if_neg hdots

/-- Compacting leaves the same when something is taken out before. -/
theorem Cancels.compactSegments_eq (h : Cancels parts left) :
    compactSegments parts = compactSegments left := by
  unfold compactSegments
  cases h with
  | dot before behind =>
    rw [List.foldl_append, List.foldl_append, List.foldl_cons, pushSegment_dot]
  | dots before behind hdot hdots =>
    rw [List.foldl_append, List.foldl_append, List.foldl_cons, List.foldl_cons,
      pushSegment_name hdot hdots, pushSegment_dots hdots]

theorem compactSegments_eq_of_reflTransGen (h : ReflTransGen Cancels parts left) :
    compactSegments parts = compactSegments left := by
  induction h with
  | refl => rfl
  | tail _ hlast ih => exact ih.trans hlast.compactSegments_eq

/-! ### Compacting takes out one after the other -/

/-- One step of the compacting takes out at most once, between what is kept and what is to come. -/
theorem reflTransGen_pushSegment (h : ['.'] ∉ kept) (segment : List Char)
    (behind : List (List Char)) :
    ReflTransGen Cancels (kept.reverse ++ segment :: behind)
      ((pushSegment kept segment).reverse ++ behind) := by
  by_cases hdot : segment = ['.']
  · subst hdot
    rw [pushSegment_dot]
    exact ReflTransGen.single (Cancels.dot kept.reverse behind)
  by_cases hdots : segment = ['.', '.']
  · subst hdots
    cases kept with
    | nil => exact ReflTransGen.refl
    | cons last rest =>
      by_cases hlast : last = ['.', '.']
      · subst hlast
        have hkept : (pushSegment (['.', '.'] :: rest) ['.', '.']).reverse =
            (['.', '.'] :: rest).reverse ++ [['.', '.']] := List.reverse_cons
        rw [hkept, List.append_assoc]
        exact ReflTransGen.refl
      · -- a `.` is never kept, so what the `..` takes back is a name
        have hname : last ≠ ['.'] := by
          rintro rfl
          exact h List.mem_cons_self
        rw [pushSegment_dots hlast, List.reverse_cons, List.append_assoc]
        exact ReflTransGen.single (Cancels.dots rest.reverse behind hname hlast)
  · rw [pushSegment_name hdot hdots, List.reverse_cons, List.append_assoc]
    exact ReflTransGen.refl

theorem reflTransGen_foldl_pushSegment (h : IsCompact kept.reverse) (parts : List (List Char)) :
    ReflTransGen Cancels (kept.reverse ++ parts) (parts.foldl pushSegment kept).reverse := by
  induction parts generalizing kept with
  | nil => rw [List.append_nil, List.foldl_nil]
  | cons part parts ih =>
    have hkept : ['.'] ∉ kept := fun hmem => h.no_dot (List.mem_reverse.mpr hmem)
    exact (reflTransGen_pushSegment hkept part parts).trans (ih (h.pushSegment part))

theorem reflTransGen_compactSegments (parts : List (List Char)) :
    ReflTransGen Cancels parts (compactSegments parts) := by
  have hnil : IsCompact ([] : List (List Char)).reverse := isCompact_nil
  exact reflTransGen_foldl_pushSegment hnil parts

/-! ### Where taking out ends -/

theorem IsCompact.not_cancels (h : IsCompact parts) (left : List (List Char)) :
    ¬ Cancels parts left := by
  intro hcancels
  cases hcancels with
  | dot before behind => exact h.no_dot (List.mem_append_right _ List.mem_cons_self)
  | dots before behind hdot hdots =>
    have hbehind := (List.pairwise_append.mp h.dots_first).2.1
    exact hdots ((List.pairwise_cons.mp hbehind).1 _ List.mem_cons_self rfl)

theorem isCompact_iff : IsCompact parts ↔ ∀ left, ¬ Cancels parts left := by
  refine ⟨IsCompact.not_cancels, fun h => ?_⟩
  rcases ReflTransGen.cases_head (reflTransGen_compactSegments parts) with hsame | ⟨next, hnext, -⟩
  · rw [hsame]
    exact isCompact_compactSegments parts
  · exact absurd hnext (h next)

/-- Taking out comes to one end, in whatever order. -/
theorem endsIn_iff : EndsIn parts left ↔ left = compactSegments parts := by
  constructor
  · rintro ⟨hrun, hend⟩
    rw [compactSegments_eq_of_reflTransGen hrun,
      compactSegments_of_isCompact (isCompact_iff.mpr hend)]
  · rintro rfl
    exact ⟨reflTransGen_compactSegments parts, (isCompact_compactSegments parts).not_cancels⟩

theorem endsIn_of_reflTransGen (h : ReflTransGen Cancels parts left) :
    EndsIn left (compactSegments parts) :=
  endsIn_iff.mpr (compactSegments_eq_of_reflTransGen h)

/-! ### Paths -/

theorem Cancels.sublist (h : Cancels parts left) : left.Sublist parts := by
  cases h with
  | dot before behind => exact (List.sublist_cons_self _ _).append_left before
  | dots before behind hdot hdots =>
    exact ((List.sublist_cons_self _ _).cons _).append_left before

theorem Cancels.compactPath_pathOf (h : Cancels parts left)
    (hparts : ∀ part ∈ parts, '/' ∉ part ∧ '\\' ∉ part) :
    compactPath (pathOf parts) = compactPath (pathOf left) := by
  rw [ModuleId.compactPath_pathOf hparts,
    ModuleId.compactPath_pathOf fun part hpart => hparts part (h.sublist.subset hpart),
    h.compactSegments_eq]

theorem backslash_not_mem_compactPath (path : String) : '\\' ∉ (compactPath path).toList := by
  rw [compactPath_eq, String.toList_ofList, mem_join_iff (by decide)]
  rintro ⟨part, hpart, hmem⟩
  exact (not_mem_of_mem_compactSegments hpart).2 hmem

theorem isCompact_splitOn_compactPath (path : String) :
    IsCompact (splitOn '/' (compactPath path).toList) := by
  have hcompact := isCompact_compactSegments (segments path)
  rw [compactPath_eq, String.toList_ofList]
  by_cases hnil : compactSegments (segments path) = []
  · rw [hnil]
    exact ⟨by decide, List.pairwise_singleton _ _⟩
  · rwa [splitOn_join hnil fun part hpart => (not_mem_of_mem_compactSegments hpart).1]

/-- **Cancelling at any place.**  A `.` among segments, and a name with the `..` behind it, can be
left out before a path is compacted.  Taken out of a path one after the other, they come to one end,
whatever was taken out first, and that is the compacted path.  Compacting twice is compacting once;
a compacted path has no backslash and no `.`, and its `..` come first. -/
theorem compactPath_normalForm :
    (∀ before behind : List (List Char), (∀ part ∈ before ++ behind, '/' ∉ part ∧ '\\' ∉ part) →
      compactPath (pathOf (before ++ ['.'] :: behind)) = compactPath (pathOf (before ++ behind)) ∧
        ∀ name : List Char, '/' ∉ name → '\\' ∉ name → name ≠ ['.'] → name ≠ ['.', '.'] →
          compactPath (pathOf (before ++ name :: ['.', '.'] :: behind)) =
            compactPath (pathOf (before ++ behind))) ∧
      ∀ path : String,
        (∃ left, compactPath path = pathOf left ∧
          (∀ other, EndsIn (segments path) other ↔ other = left) ∧
          ∀ other, ReflTransGen Cancels (segments path) other → EndsIn other left) ∧
        compactPath (compactPath path) = compactPath path ∧
        '\\' ∉ (compactPath path).toList ∧
        IsCompact (splitOn '/' (compactPath path).toList) := by
  refine ⟨fun before behind hparts => ⟨?_, fun name hslash hback hdot hdots => ?_⟩,
    fun path => ⟨⟨compactSegments (segments path), compactPath_eq path, fun _ => endsIn_iff,
      fun _ => endsIn_of_reflTransGen⟩, compactPath_compactPath path,
      backslash_not_mem_compactPath path, isCompact_splitOn_compactPath path⟩⟩
  · obtain ⟨hbefore, hbehind⟩ := List.forall_mem_append.mp hparts
    exact (Cancels.dot before behind).compactPath_pathOf
      (List.forall_mem_append.mpr ⟨hbefore, List.forall_mem_cons.mpr ⟨by decide, hbehind⟩⟩)
  · obtain ⟨hbefore, hbehind⟩ := List.forall_mem_append.mp hparts
    have hpair : ∀ part ∈ name :: ['.', '.'] :: behind, '/' ∉ part ∧ '\\' ∉ part :=
      List.forall_mem_cons.mpr ⟨⟨hslash, hback⟩, List.forall_mem_cons.mpr ⟨by decide, hbehind⟩⟩
    exact (Cancels.dots before behind hdot hdots).compactPath_pathOf
      (List.forall_mem_append.mpr ⟨hbefore, hpair⟩)

end ModuleId
end AmdBundle
