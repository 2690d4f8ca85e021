import AmdBundle.Proofs.ModuleId.Cancel
import AmdBundle.Proofs.ModuleId.Cover
import Mathlib.Data.List.Pairwise

/-!
# AmdBundle.Proofs.ModuleId.Canonical — ids that compacting leaves alone

An id is `Canonical` if compacting does not change it and it does not begin with a dot.  It has then
no backslash and no `.` or `..` among its segments (`Dotless`), and that is all (`canonical_iff`).
Dotless ids can be put together with a slash and cut at one (`dotless_append_slash_iff`), so a
canonical id may get another beginning or another end.
-/

namespace AmdBundle
namespace ModuleId

open Text

variable {path before behind key : String}

/-- Compacting does not change the id, and it does not begin with a dot. -/
structure Canonical (path : String) : Prop where
  compact : compactPath path = path
  not_relative : isRelative path = false

/-- No backslash is in the id, and no segment is `.` or `..`. -/
structure Dotless (path : String) : Prop where
  no_backslash : '\\' ∉ path.toList
  no_dots : ∀ part ∈ splitOn '/' path.toList, part ≠ ['.'] ∧ part ≠ ['.', '.']

theorem isRelative_of_splitOn {first : List Char} {rest : List (List Char)}
    (h : splitOn '/' path.toList = first :: rest) (hdot : first.head? = some '.') :
    isRelative path = true := by
  have hjoin : join '/' (first :: rest) = path.toList := by
    rw [← h]
    exact join_splitOn '/' path.toList
  obtain ⟨tail, rfl⟩ := List.head?_eq_some_iff.mp hdot
  rw [isRelative, ← hjoin]
  cases rest with
  | nil => rfl
  | cons next rest => rfl

/-- In a compact id that is not relative no segment is `..`, for the first one is not. -/
theorem Canonical.dotless (h : Canonical path) : Dotless path := by
  have hback : '\\' ∉ path.toList := by
    rw [← h.compact]
    exact backslash_not_mem_compactPath path
  have hcompact : IsCompact (splitOn '/' path.toList) := by
    rw [← h.compact]
    exact isCompact_splitOn_compactPath path
  refine ⟨hback, fun part hpart => ⟨?_, ?_⟩⟩
  · rintro rfl
    exact hcompact.no_dot hpart
  · rintro rfl
    cases hsplit : splitOn '/' path.toList with
    | nil => exact splitOn_ne_nil '/' path.toList hsplit
    | cons first rest =>
      have hfirst : first = ['.', '.'] := by
        rw [hsplit] at hpart hcompact
        rcases List.mem_cons.mp hpart with hself | hrest
        · exact hself.symm
        · exact (List.pairwise_cons.mp hcompact.dots_first).1 _ hrest rfl
      have hrelative : isRelative path = true := by
        apply isRelative_of_splitOn hsplit
        rw [hfirst]
        rfl
      rw [h.not_relative] at hrelative
      exact Bool.false_ne_true hrelative

theorem Dotless.compactPath_eq (h : Dotless path) : compactPath path = path := by
  have hpath : pathOf (splitOn '/' path.toList) = path := by
    rw [pathOf, join_splitOn, String.ofList_toList]
  have hparts : ∀ part ∈ splitOn '/' path.toList, '/' ∉ part ∧ '\\' ∉ part := by
    intro part hpart
    refine ⟨not_mem_of_mem_splitOn hpart, fun hmem => ?_⟩
    exact h.no_backslash (mem_of_mem_splitOn hpart hmem)
  have hcompact : IsCompact (splitOn '/' path.toList) := by
    refine ⟨fun hmem => (h.no_dots _ hmem).1 rfl, ?_⟩
    refine List.pairwise_of_forall_mem_list fun part _ part' hpart' hdots => ?_
    exact absurd hdots (h.no_dots part' hpart').2
  calc compactPath path
      = compactPath (pathOf (splitOn '/' path.toList)) := by rw [hpath]
    _ = pathOf (compactSegments (splitOn '/' path.toList)) := compactPath_pathOf hparts
    _ = path := by rw [compactSegments_of_isCompact hcompact, hpath]

theorem canonical_iff : Canonical path ↔ Dotless path ∧ isRelative path = false :=
  ⟨fun h => ⟨h.dotless, h.not_relative⟩, fun h => ⟨h.1.compactPath_eq, h.2⟩⟩

/-! ### Ids put together -/

theorem dotless_append_slash_iff :
    Dotless (before ++ "/" ++ behind) ↔ Dotless before ∧ Dotless behind := by
  have hlist : (before ++ "/" ++ behind).toList = before.toList ++ '/' :: behind.toList := by simp
  have hback : '\\' ∉ (before ++ "/" ++ behind).toList ↔
      '\\' ∉ before.toList ∧ '\\' ∉ behind.toList := by
    simp [hlist]
  constructor
  · rintro ⟨hnone, hdots⟩
    rw [hlist, splitOn_append_sep, List.forall_mem_append] at hdots
    obtain ⟨hbefore, hbehind⟩ := hback.mp hnone
    exact ⟨⟨hbefore, hdots.1⟩, ⟨hbehind, hdots.2⟩⟩
  · rintro ⟨hbefore, hbehind⟩
    refine ⟨hback.mpr ⟨hbefore.no_backslash, hbehind.no_backslash⟩, ?_⟩
    rw [hlist, splitOn_append_sep, List.forall_mem_append]
    exact ⟨hbefore.no_dots, hbehind.no_dots⟩

theorem isRelative_append_slash : isRelative (before ++ "/" ++ behind) = isRelative before := by
  have hlist : (before ++ "/" ++ behind).toList = before.toList ++ '/' :: behind.toList := by simp
  rw [isRelative, isRelative, hlist]
  cases before.toList with
  | nil => rfl
  | cons c cs => rfl

theorem Canonical.append_slash (h : Canonical before) (hbehind : Dotless behind) :
    Canonical (before ++ "/" ++ behind) := by
  rw [canonical_iff, isRelative_append_slash]
  exact ⟨dotless_append_slash_iff.mpr ⟨h.dotless, hbehind⟩, h.not_relative⟩

theorem Canonical.replaceKey {replacement rest : String} (hpath : Canonical path)
    (hreplacement : Canonical replacement) (hrest : coveredBy? key path = some rest) :
    Canonical (replacement ++ rest) := by
  have heq : path = key ++ rest := (coveredBy?_eq_some_iff.mp hrest).1
  rcases covers_of_coveredBy? hrest with hself | ⟨tail, htail⟩
  · have hempty : rest = "" := by
      have happend : key ++ rest = key ++ "" := by rw [← heq, String.append_empty, hself]
      exact (String.append_right_inj key).mp happend
    rwa [hempty, String.append_empty]
  · have hslash : rest = "/" ++ tail := by
      have happend : key ++ rest = key ++ ("/" ++ tail) := by
        rw [← heq, htail, String.append_assoc]
      exact (String.append_right_inj key).mp happend
    have hbehind : Dotless tail := by
      have hdotless := hpath.dotless
      rw [htail, dotless_append_slash_iff] at hdotless
      exact hdotless.2
    rw [hslash, ← String.append_assoc]
    exact hreplacement.append_slash hbehind

end ModuleId
end AmdBundle
