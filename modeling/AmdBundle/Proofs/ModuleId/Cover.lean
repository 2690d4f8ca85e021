import AmdBundle.ModuleId
import Mathlib.Data.List.Induction
import Mathlib.Data.List.Nodup

/-!
# AmdBundle.Proofs.ModuleId.Cover — the longest key that covers an id

A key `Covers` an id that equals it or goes on with a slash behind it.  Of the keys that cover one
id no two have one length (`Covers.eq_of_size_eq`), so a table with each key once has at most one
entry whose key is the longest to cover the id (`IsLongestCover`), and that is the one which
`longestCover` finds (`longestCover_eq_some_iff`).  The order of the entries is of no account
(`longestCover_perm`).
-/

namespace AmdBundle
namespace ModuleId

variable {α : Type} {entries other : List (String × α)} {entry : String × α}
  {key key' id rest : String}

/-- The key is the id, or the id goes on with a slash behind the key. -/
def Covers (key id : String) : Prop :=
  id = key ∨ ∃ rest, id = key ++ "/" ++ rest

theorem covers_of_coveredBy? (h : coveredBy? key id = some rest) : Covers key id := by
  obtain ⟨hid, hrest⟩ := coveredBy?_eq_some_iff.mp h
  rcases hrest with rfl | hslash
  · exact .inl (by rw [hid, String.append_empty])
  · obtain ⟨tail, htail⟩ := List.head?_eq_some_iff.mp hslash
    refine .inr ⟨String.ofList tail, ?_⟩
    rw [hid, ← String.toList_inj]
    simp [htail]

theorem exists_coveredBy? (h : Covers key id) : ∃ rest, coveredBy? key id = some rest := by
  rcases h with hid | ⟨rest, hid⟩
  · refine ⟨"", coveredBy?_eq_some_iff.mpr ⟨?_, .inl rfl⟩⟩
    rw [hid, String.append_empty]
  · refine ⟨"/" ++ rest, coveredBy?_eq_some_iff.mpr ⟨?_, .inr ?_⟩⟩
    · rw [hid, String.append_assoc]
    · simp

theorem isSome_coveredBy?_iff : (coveredBy? key id).isSome = true ↔ Covers key id := by
  constructor
  · intro h
    obtain ⟨rest, hrest⟩ := Option.isSome_iff_exists.mp h
    exact covers_of_coveredBy? hrest
  · intro h
    obtain ⟨rest, hrest⟩ := exists_coveredBy? h
    rw [hrest]
    rfl

theorem Covers.isPrefix (h : Covers key id) : key.toList <+: id.toList := by
  rcases h with rfl | ⟨rest, rfl⟩
  · exact List.prefix_rfl
  · refine ⟨("/" ++ rest).toList, ?_⟩
    simp

theorem eq_of_isPrefix_of_size_le (h : key.toList <+: key'.toList)
    (hsize : key'.utf8ByteSize ≤ key.utf8ByteSize) : key = key' := by
  obtain ⟨tail, htail⟩ := h
  have hkey : key' = key ++ String.ofList tail := by
    rw [← String.toList_inj, ← htail]
    simp
  have hbytes : key'.utf8ByteSize = key.utf8ByteSize + (String.ofList tail).utf8ByteSize := by
    rw [hkey, String.utf8ByteSize_append]
  have hnone : (String.ofList tail).utf8ByteSize = 0 := by omega
  rw [hkey, String.utf8ByteSize_eq_zero_iff.mp hnone, String.append_empty]

theorem Covers.eq_of_size_eq (h : Covers key id) (h' : Covers key' id)
    (hsize : key.utf8ByteSize = key'.utf8ByteSize) : key = key' := by
  rcases List.prefix_or_prefix_of_prefix h.isPrefix h'.isPrefix with hbefore | hbehind
  · exact eq_of_isPrefix_of_size_le hbefore (Nat.le_of_eq hsize.symm)
  · exact (eq_of_isPrefix_of_size_le hbehind (Nat.le_of_eq hsize)).symm

/-- The key is among the keys, covers the id, and every other key that does is shorter. -/
structure IsLongestCover (keys : List String) (id key : String) : Prop where
  mem : key ∈ keys
  covers : Covers key id
  longest : ∀ other ∈ keys, Covers other id → other ≠ key → other.utf8ByteSize < key.utf8ByteSize

theorem IsLongestCover.unique {keys : List String} (h : IsLongestCover keys id key)
    (h' : IsLongestCover keys id key') : key = key' := by
  by_contra hne
  have hlt := h.longest key' h'.mem h'.covers (Ne.symm hne)
  have hgt := h'.longest key h.mem h.covers hne
  omega

theorem IsLongestCover.of_perm {keys keys' : List String} (hkeys : keys.Perm keys')
    (h : IsLongestCover keys id key) : IsLongestCover keys' id key where
  mem := hkeys.mem_iff.mp h.mem
  covers := h.covers
  longest other hother := h.longest other (hkeys.mem_iff.mpr hother)

/-! ### What is found -/

theorem longestCover_concat (entries : List (String × α)) (entry : String × α) (id : String) :
    longestCover (entries ++ [entry]) id =
      if (coveredBy? entry.1 id).isSome then
        match longestCover entries id with
        | some found =>
          if found.1.utf8ByteSize ≤ entry.1.utf8ByteSize then some entry else some found
        | none => some entry
      else longestCover entries id := by
  rw [longestCover, List.foldl_append]
  show (if (coveredBy? entry.1 id).isSome then _ else longestCover entries id) = _
  split
  · show (match longestCover entries id with
      | some found =>
        if found.1.utf8ByteSize ≤ entry.1.utf8ByteSize then some entry
        else longestCover entries id
      | none => some entry) = _
    cases longestCover entries id <;> rfl
  · rfl

theorem not_covers_of_longestCover (h : longestCover entries id = none) :
    ∀ entry ∈ entries, ¬ Covers entry.1 id := by
  induction entries using List.reverseRecOn with
  | nil => simp
  | append_singleton entries entry ih =>
    rw [longestCover_concat] at h
    by_cases hentry : Covers entry.1 id
    · rw [if_pos (isSome_coveredBy?_iff.mpr hentry)] at h
      split at h
      · split at h <;> simp at h
      · simp at h
    · rw [if_neg (isSome_coveredBy?_iff.not.mpr hentry)] at h
      rw [List.forall_mem_append, List.forall_mem_singleton]
      exact ⟨ih h, hentry⟩

/-- What is found is an entry whose key covers the id, and no key that does is longer. -/
theorem longestCover_spec (h : longestCover entries id = some entry) :
    entry ∈ entries ∧ Covers entry.1 id ∧
      ∀ other ∈ entries, Covers other.1 id → other.1.utf8ByteSize ≤ entry.1.utf8ByteSize := by
  -- by induction from the end, as the fold keeps the longest of the entries in front
  induction entries using List.reverseRecOn generalizing entry with
  | nil => simp [longestCover] at h
  | append_singleton entries last ih =>
    rw [longestCover_concat] at h
    rw [List.forall_mem_append, List.forall_mem_singleton]
    by_cases hlast : Covers last.1 id
    · rw [if_pos (isSome_coveredBy?_iff.mpr hlast)] at h
      cases hfound : longestCover entries id with
      | none =>
        rw [hfound] at h
        obtain rfl : last = entry := Option.some.inj h
        refine ⟨by simp, hlast, fun other hother hcovers => ?_, fun _ => Nat.le_refl _⟩
        exact absurd hcovers (not_covers_of_longestCover hfound other hother)
      | some found =>
        rw [hfound] at h
        obtain ⟨hmem, hcovers, hlongest⟩ := ih hfound
        dsimp only at h
        by_cases hsize : found.1.utf8ByteSize ≤ last.1.utf8ByteSize
        · rw [if_pos hsize] at h
          obtain rfl : last = entry := Option.some.inj h
          refine ⟨by simp, hlast, fun other hother hcover => ?_, fun _ => Nat.le_refl _⟩
          exact Nat.le_trans (hlongest other hother hcover) hsize
        · rw [if_neg hsize] at h
          obtain rfl : found = entry := Option.some.inj h
          have hshorter : last.1.utf8ByteSize ≤ found.1.utf8ByteSize := by omega
          exact ⟨List.mem_append_left _ hmem, hcovers, hlongest, fun _ => hshorter⟩
    · rw [if_neg (isSome_coveredBy?_iff.not.mpr hlast)] at h
      obtain ⟨hmem, hcovers, hlongest⟩ := ih h
      exact ⟨List.mem_append_left _ hmem, hcovers, hlongest, fun hcover => absurd hcover hlast⟩

theorem mem_of_longestCover (h : longestCover entries id = some entry) : entry ∈ entries :=
  (longestCover_spec h).1

theorem longestCover_eq_none_iff :
    longestCover entries id = none ↔ ∀ key ∈ entries.map Prod.fst, ¬ Covers key id := by
  rw [List.forall_mem_map]
  constructor
  · exact not_covers_of_longestCover
  · intro h
    cases hfound : longestCover entries id with
    | none => rfl
    | some entry =>
      obtain ⟨hmem, hcovers, -⟩ := longestCover_spec hfound
      exact absurd hcovers (h entry hmem)

theorem isLongestCover_of_longestCover (h : longestCover entries id = some entry) :
    IsLongestCover (entries.map Prod.fst) id entry.1 := by
  obtain ⟨hmem, hcovers, hlongest⟩ := longestCover_spec h
  refine ⟨List.mem_map_of_mem hmem, hcovers, fun key hkey hcover hne => ?_⟩
  obtain ⟨other, hother, rfl⟩ := List.mem_map.mp hkey
  refine Nat.lt_of_le_of_ne (hlongest other hother hcover) fun hsize => ?_
  exact hne (hcover.eq_of_size_eq hcovers hsize)

theorem longestCover_eq_some_iff (hkeys : (entries.map Prod.fst).Nodup) :
    longestCover entries id = some entry ↔
      entry ∈ entries ∧ IsLongestCover (entries.map Prod.fst) id entry.1 := by
  constructor
  · intro h
    exact ⟨mem_of_longestCover h, isLongestCover_of_longestCover h⟩
  · rintro ⟨hmem, hlongest⟩
    cases hfound : longestCover entries id with
    | none => exact absurd hlongest.covers (longestCover_eq_none_iff.mp hfound _ hlongest.mem)
    | some found =>
      have hkey : found.1 = entry.1 := (isLongestCover_of_longestCover hfound).unique hlongest
      exact congrArg some (List.inj_on_of_nodup_map hkeys (mem_of_longestCover hfound) hmem hkey)

theorem longestCover_perm (hkeys : (entries.map Prod.fst).Nodup) (hperm : entries.Perm other)
    (id : String) : longestCover other id = longestCover entries id := by
  have hsame : (entries.map Prod.fst).Perm (other.map Prod.fst) := hperm.map Prod.fst
  cases hfound : longestCover entries id with
  | none =>
    rw [longestCover_eq_none_iff] at hfound ⊢
    exact fun key hkey => hfound key (hsame.mem_iff.mpr hkey)
  | some entry =>
    rw [longestCover_eq_some_iff hkeys] at hfound
    rw [longestCover_eq_some_iff (hsame.nodup_iff.mp hkeys)]
    exact ⟨hperm.mem_iff.mp hfound.1, hfound.2.of_perm hsame⟩

end ModuleId
end AmdBundle
