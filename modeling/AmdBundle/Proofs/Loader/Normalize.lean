import AmdBundle.Loader.Configured
import AmdBundle.Proofs.ModuleId.Cover
import AmdBundle.Proofs.ModuleId.Sibling

/-!
# AmdBundle.Proofs.Loader.Normalize — how an id gets its absolute form

The ways in which `ConfiguredLoader.normalize` ends, one equation for each: an id may be left alone,
may stay relative, or goes through the map and the packages (`mapped`) and then starts over with the
replacement of an alias, as long as there is one.  What the configuration puts into an id comes from
its replacements and main modules: a character that is in none of these (`Lacks`) is in the absolute
form of an id only if it is in the id or in the directory that the id is taken against
(`mem_normalize`).
-/

namespace AmdBundle

theorem mem_of_foldl_choose {α : Type} {choose : Option α → α → Option α}
    (hchoose : ∀ best x, choose best x = best ∨ choose best x = some x) {xs : List α} {y : α}
    (h : xs.foldl choose none = some y) : y ∈ xs := by
  suffices hall : ∀ best, xs.foldl choose best = some y → best = some y ∨ y ∈ xs by
    exact (hall none h).resolve_left (by simp)
  clear h
  induction xs with
  | nil => exact fun best h => .inl h
  | cons x xs ih =>
    intro best h
    rcases ih (choose best x) h with hx | hmem
    · rcases hchoose best x with hkeep | htake
      · exact .inl (hkeep ▸ hx)
      · obtain rfl : x = y := Option.some.inj (htake.symm.trans hx)
        exact .inr List.mem_cons_self
    · exact .inr (List.mem_cons_of_mem _ hmem)

namespace ConfiguredLoader

open ModuleId Text

variable {loader : ConfiguredLoader} {depth : Nat} {id path : String} {reference : Option String}

theorem toAbsMid_toLoader :
    loader.toLoader.toAbsMid id reference = loader.normalize maxAliasDepth id reference := rfl

/-! ### How normalization ends -/

/-- The id after the map and the packages. -/
def mapped (loader : ConfiguredLoader) (path : String) (reference : Option String) : String :=
  loader.applyPackages (loader.applyMap path reference)

/-- How an id comes to its absolute form, with at most so many aliases applied. -/
inductive Normalizes (loader : ConfiguredLoader) :
    Nat → String → Option String → String → Prop
  /-- The id is left as it is. -/
  | verbatim {depth : Nat} {id : String} {reference : Option String}
      (hverbatim : isVerbatim id = true) : Normalizes loader depth id reference id
  /-- There is nothing that the id is relative to. -/
  | unplaced {depth : Nat} {id : String} {reference : Option String}
      (hverbatim : isVerbatim id = false) (hpath : absolutePath? id reference = none) :
      Normalizes loader depth id reference id
  /-- The path leads above the top. -/
  | escaped {depth : Nat} {id path : String} {reference : Option String}
      (hverbatim : isVerbatim id = false) (hpath : absolutePath? id reference = some path)
      (hrelative : isRelative path = true) : Normalizes loader depth id reference path
  /-- No alias matches, or no more may be applied. -/
  | settled {depth : Nat} {id path : String} {reference : Option String}
      (hverbatim : isVerbatim id = false) (hpath : absolutePath? id reference = some path)
      (hrelative : isRelative path = false)
      (hend : depth = 0 ∨ loader.matchAlias? (loader.mapped path reference) = none) :
      Normalizes loader depth id reference (loader.mapped path reference)
  /-- An alias matches, and its replacement starts over. -/
  | replaced {depth : Nat} {id path replacement result : String} {reference : Option String}
      (hverbatim : isVerbatim id = false) (hpath : absolutePath? id reference = some path)
      (hrelative : isRelative path = false)
      (halias : loader.matchAlias? (loader.mapped path reference) = some replacement)
      (hrest : Normalizes loader depth replacement none result) :
      Normalizes loader (depth + 1) id reference result

theorem normalizes (loader : ConfiguredLoader) (depth : Nat) (id : String)
    (reference : Option String) :
    Normalizes loader depth id reference (loader.normalize depth id reference) := by
  -- both cases end in the same ways, but at depth 0 no alias may be applied
  induction depth generalizing id reference with
  | zero =>
    unfold normalize
    split
    · rename_i hverbatim
      exact .verbatim hverbatim
    · rename_i hverbatim
      have hverbatim := Bool.eq_false_iff.mpr hverbatim
      split
      · rename_i hpath
        exact .unplaced hverbatim hpath
      · rename_i path hpath
        split
        · rename_i hrelative
          exact .escaped hverbatim hpath hrelative
        · rename_i hrelative
          exact .settled hverbatim hpath (Bool.eq_false_iff.mpr hrelative) (.inl rfl)
  | succ depth ih =>
    unfold normalize
    split
    · rename_i hverbatim
      exact .verbatim hverbatim
    · rename_i hverbatim
      have hverbatim := Bool.eq_false_iff.mpr hverbatim
      split
      · rename_i hpath
        exact .unplaced hverbatim hpath
      · rename_i path hpath
        split
        · rename_i hrelative
          exact .escaped hverbatim hpath hrelative
        · rename_i hrelative
          have hrelative := Bool.eq_false_iff.mpr hrelative
          cases halias : loader.matchAlias? (loader.mapped path reference) with
          | none =>
            unfold mapped at halias
            simp only [halias]
            exact .settled hverbatim hpath hrelative (.inr halias)
          | some replacement =>
            have hreplaced := Normalizes.replaced hverbatim hpath hrelative halias
              (ih replacement none)
            unfold mapped at halias
            simpa only [halias] using hreplaced

/-! ### What the configuration puts into ids -/

theorem mem_of_tableFor? {table : Table String} (h : loader.tableFor? reference = some table) :
    ∃ key, (key, table) ∈ loader.config.map := by
  rw [tableFor?] at h
  split at h
  · rename_i entry hspecific
    obtain ⟨context, -, hcover⟩ := Option.bind_eq_some_iff.mp hspecific
    have hmem := (List.mem_filter.mp (mem_of_longestCover hcover)).1
    exact ⟨entry.1, Option.some.inj h ▸ hmem⟩
  · obtain ⟨before, behind, hmap, -⟩ := List.lookup_eq_some_iff.mp h
    exact ⟨"*", by simp [hmap]⟩

theorem mem_of_matchAlias? {replacement : String} (h : loader.matchAlias? id = some replacement) :
    ∃ entry ∈ loader.aliases, entry.replacement = replacement := by
  obtain ⟨⟨length, text⟩, hbest, rfl⟩ := Option.map_eq_some_iff.mp h
  have hchosen : (length, text) ∈ loader.aliases.filterMap fun entry =>
      (entry.pattern.matchLength? id).map (·, entry.replacement) := by
    refine mem_of_foldl_choose (fun best found => ?_) hbest
    split
    · split
      · exact .inl rfl
      · exact .inr rfl
    · exact .inr rfl
  obtain ⟨entry, hentry, hfound⟩ := List.mem_filterMap.mp hchosen
  obtain ⟨found, -, hpair⟩ := Option.map_eq_some_iff.mp hfound
  exact ⟨entry, hentry, (Prod.mk.inj hpair).2⟩

/-- A character that the configuration puts into no id. -/
structure Lacks (loader : ConfiguredLoader) (c : Char) : Prop where
  map : ∀ entry ∈ loader.config.map, ∀ pair ∈ entry.2, c ∉ pair.2.toList
  main : ∀ package ∈ loader.config.packages, c ∉ package.main.toList
  replacement : ∀ entry ∈ loader.aliases, c ∉ entry.replacement.toList

section Lacks

variable {c : Char} (hlacks : loader.Lacks c)

include hlacks

theorem mem_applyMap (h : c ∈ (loader.applyMap path reference).toList) : c ∈ path.toList := by
  rw [applyMap] at h
  split at h
  · rename_i table htable
    obtain ⟨key, hkey⟩ := mem_of_tableFor? htable
    rw [applyTable] at h
    split at h
    · rename_i name replacement hcover
      rw [String.toList_append, List.mem_append] at h
      rcases h with h | h
      · exact absurd h (hlacks.map _ hkey _ (mem_of_longestCover hcover))
      · cases hrest : coveredBy? name path with
        | none => simp [hrest] at h
        | some rest =>
          rw [(coveredBy?_eq_some_iff.mp hrest).1, String.toList_append, List.mem_append]
          simp only [hrest, Option.getD_some] at h
          exact .inr h
    · exact h
  · exact h

theorem mem_mapped (hslash : c ≠ '/') (h : c ∈ (loader.mapped path reference).toList) :
    c ∈ path.toList := by
  rw [mapped, applyPackages] at h
  split at h
  · rename_i package hpackage
    have hmain := hlacks.main package (List.mem_of_find?_eq_some hpackage)
    rw [String.toList_append, String.toList_append, List.mem_append, List.mem_append] at h
    rcases h with (h | h) | h
    · exact mem_applyMap hlacks h
    · exact absurd (List.mem_singleton.mp h) hslash
    · exact absurd h hmain
  · exact mem_applyMap hlacks h

omit hlacks in
theorem mem_absolutePath? (hslash : c ≠ '/') (hpath : absolutePath? id reference = some path)
    (h : c ∈ path.toList) :
    c ∈ id.toList ∨ ∃ context, reference = some context ∧ c ∈ (directory context).toList := by
  rw [absolutePath?] at hpath
  split at hpath
  · obtain ⟨context, rfl, rfl⟩ := Option.map_eq_some_iff.mp hpath
    rcases mem_siblingPath hslash h with hdirectory | hid
    · exact .inr ⟨context, rfl, hdirectory⟩
    · exact .inl hid
  · obtain rfl := Option.some.inj hpath
    exact .inl (mem_of_mem_compactPath hslash h)

/-- What is in the absolute form of an id is in the id or in the directory that it is taken against.
-/
theorem mem_normalize (hslash : c ≠ '/') (h : c ∈ (loader.normalize depth id reference).toList) :
    c ∈ id.toList ∨ ∃ context, reference = some context ∧ c ∈ (directory context).toList := by
  have hway := normalizes loader depth id reference
  revert h
  generalize loader.normalize depth id reference = result at hway
  intro h
  induction hway with
  | verbatim => exact .inl h
  | unplaced => exact .inl h
  | escaped _ hpath => exact mem_absolutePath? hslash hpath h
  | settled _ hpath => exact mem_absolutePath? hslash hpath (mem_mapped hlacks hslash h)
  | replaced _ _ _ halias _ ih =>
    -- nothing of the id is left, and the replacement lacks the character
    obtain ⟨entry, hentry, rfl⟩ := mem_of_matchAlias? halias
    rcases ih h with hreplacement | ⟨context, hnone, -⟩
    · exact absurd hreplacement (hlacks.replacement entry hentry)
    · simp at hnone

end Lacks

end ConfiguredLoader
end AmdBundle
