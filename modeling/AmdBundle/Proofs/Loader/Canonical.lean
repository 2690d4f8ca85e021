import AmdBundle.Proofs.Loader.KeyOrder
import AmdBundle.Proofs.ModuleId.Canonical

/-!
# AmdBundle.Proofs.Loader.Canonical — absolute ids are canonical

Compacting is the first thing that is done to an id, and nothing compacts it again: the map puts
something else at its beginning, a package puts its main module behind it, and an alias starts over
with another id.  Where all that a configuration puts into ids is canonical
(`ConfiguredLoader.Canonical`), what comes out is so too: a canonical id has a canonical absolute
form (`Normalizes.canonical`), and any other is either left alone or compacted before.
-/

namespace AmdBundle
namespace ConfiguredLoader

open ModuleId Text

variable {loader : ConfiguredLoader} {table : Table String} {depth : Nat}
  {id path result : String} {reference : Option String}

/-- All that the configuration puts into ids is canonical. -/
structure Canonical (loader : ConfiguredLoader) : Prop where
  map : ∀ entry ∈ loader.config.map, ∀ pair ∈ entry.2, ModuleId.Canonical pair.2
  main : ∀ package ∈ loader.config.packages, ModuleId.Canonical package.main
  replacement : ∀ entry ∈ loader.aliases, ModuleId.Canonical entry.replacement

/-! ### The way of an id -/

theorem canonical_applyTable (htable : ∀ pair ∈ table, ModuleId.Canonical pair.2)
    (hpath : ModuleId.Canonical path) : ModuleId.Canonical (applyTable table path) := by
  cases hfound : longestCover table path with
  | none =>
    rw [applyTable_of_none hfound]
    exact hpath
  | some entry =>
    obtain ⟨key, replacement⟩ := entry
    obtain ⟨rest, hrest⟩ := exists_coveredBy? (longestCover_spec hfound).2.1
    rw [applyTable_of_some hfound (coveredBy?_eq_some_iff.mp hrest).1]
    exact hpath.replaceKey (htable _ (mem_of_longestCover hfound)) hrest

theorem canonical_mapped (hloader : loader.Canonical) (hpath : ModuleId.Canonical path) :
    ModuleId.Canonical (loader.mapped path reference) := by
  have hmapped : ModuleId.Canonical (loader.applyMap path reference) := by
    rw [applyMap]
    cases htable : loader.tableFor? reference with
    | none => exact hpath
    | some table =>
      obtain ⟨key, hkey⟩ := mem_of_tableFor? htable
      exact canonical_applyTable (hloader.map _ hkey) hpath
  rw [mapped, applyPackages]
  cases hpackage : loader.config.package? (loader.applyMap path reference) with
  | none => exact hmapped
  | some package =>
    have hmain := hloader.main package (List.mem_of_find?_eq_some hpackage)
    exact hmapped.append_slash hmain.dotless

theorem absolutePath?_of_canonical (h : ModuleId.Canonical id) :
    absolutePath? id reference = some id := by
  rw [absolutePath?, h.not_relative, if_neg Bool.false_ne_true, h.compact]

theorem compactPath_absolutePath? (h : absolutePath? id reference = some path) :
    compactPath path = path := by
  rw [absolutePath?] at h
  split at h
  · obtain ⟨context, -, hpath⟩ := Option.map_eq_some_iff.mp h
    rw [← hpath, siblingPath, compactPath_compactPath]
  · rw [← Option.some.inj h, compactPath_compactPath]

theorem Normalizes.canonical (hloader : loader.Canonical)
    (h : loader.Normalizes depth id reference result) (hid : ModuleId.Canonical id) :
    ModuleId.Canonical result := by
  induction h with
  | verbatim => exact hid
  | unplaced => exact hid
  | escaped _ hpath _ =>
    rw [absolutePath?_of_canonical hid] at hpath
    rwa [← Option.some.inj hpath]
  | settled _ hpath _ _ =>
    rw [absolutePath?_of_canonical hid] at hpath
    obtain rfl := Option.some.inj hpath
    exact canonical_mapped hloader hid
  | replaced _ _ _ halias _ ih =>
    -- nothing of the id is left
    obtain ⟨entry, hentry, rfl⟩ := mem_of_matchAlias? halias
    exact ih (hloader.replacement entry hentry)

/-- **Canonical ids.**  Where all that the configuration puts into ids is canonical, an id is left
as it is, for it is a path from the root, an address, or the name of a script file, or it is
relative and there is nothing it is relative to; or it is joined to its directory and compacted, and
then the absolute form is a compact id too, which begins with a dot exactly if the joined and
compacted path does. -/
theorem toAbsMid_canonical (hloader : loader.Canonical) (id : String) (reference : Option String) :
    (loader.toAbsMid id reference = id ∧
      (isVerbatim id = true ∨ isRelative id = true ∧ reference = none)) ∨
    ∃ path, isVerbatim id = false ∧ absolutePath? id reference = some path ∧
      compactPath (loader.toAbsMid id reference) = loader.toAbsMid id reference ∧
      isRelative (loader.toAbsMid id reference) = isRelative path := by
  have hway := normalizes loader maxAliasDepth id reference
  rw [toAbsMid]
  generalize loader.normalize maxAliasDepth id reference = result at hway
  cases hway with
  | verbatim hverbatim => exact .inl ⟨rfl, .inl hverbatim⟩
  | unplaced hverbatim hpath =>
    rw [absolutePath?] at hpath
    split at hpath
    · rename_i hrelative
      exact .inl ⟨rfl, .inr ⟨hrelative, Option.map_eq_none_iff.mp hpath⟩⟩
    · simp at hpath
  | escaped hverbatim hpath hrelative =>
    exact .inr ⟨_, hverbatim, hpath, compactPath_absolutePath? hpath, rfl⟩
  | settled hverbatim hpath hrelative hend =>
    have hcanonical : ModuleId.Canonical (loader.mapped _ reference) :=
      canonical_mapped hloader ⟨compactPath_absolutePath? hpath, hrelative⟩
    refine .inr ⟨_, hverbatim, hpath, hcanonical.compact, ?_⟩
    rw [hcanonical.not_relative, hrelative]
  | replaced hverbatim hpath hrelative halias hrest =>
    obtain ⟨entry, hentry, rfl⟩ := mem_of_matchAlias? halias
    have hcanonical := hrest.canonical hloader (hloader.replacement entry hentry)
    refine .inr ⟨_, hverbatim, hpath, hcanonical.compact, ?_⟩
    rw [hcanonical.not_relative, hrelative]

/-- A map, a package and an alias; the alias is for all ids with a tilde. -/
def movesHome : ConfiguredLoader :=
  ⟨{ map := [("*", [("app", "lib")])], packages := [.defined "lib/ui" none (some "./boot")] },
    [⟨(Regex.char '~').machine, "app/ui"⟩]⟩

/-- A path above the top stays as it is, dots and all; one that an alias takes is canonical. -/
theorem toAbsMid_canonical_movesHome :
    movesHome.Canonical ∧
      absolutePath? ".././../old" (some "app/main") = some "../old" ∧
      movesHome.toAbsMid ".././../old" (some "app/main") = "../old" ∧
      absolutePath? "./x/../~" (some "app/main") = some "app/~" ∧
      ModuleId.Canonical (movesHome.toAbsMid "./x/../~" (some "app/main")) := by
  have hloader : movesHome.Canonical := by
    refine ⟨fun entry hentry pair hpair => ?_, fun package hpackage => ?_, fun entry hentry => ?_⟩
    · rw [List.mem_singleton.mp hentry] at hpair
      rw [List.mem_singleton.mp hpair]
      exact ⟨by decide, by decide⟩
    · rw [List.mem_singleton.mp hpackage]
      exact ⟨by decide, by decide⟩
    · rw [List.mem_singleton.mp hentry]
      exact ⟨by decide, by decide⟩
  have hpath : absolutePath? "./x/../~" (some "app/main") = some "app/~" := by decide
  refine ⟨hloader, by decide, by decide +kernel, hpath, ?_⟩
  rcases toAbsMid_canonical hloader "./x/../~" (some "app/main") with
    ⟨-, hverbatim | ⟨-, hnone⟩⟩ | ⟨path, -, hpath', hcompact, hrelative⟩
  · exact absurd hverbatim (by decide)
  · simp at hnone
  · obtain rfl := Option.some.inj (hpath.symm.trans hpath')
    exact ⟨hcompact, hrelative⟩

end ConfiguredLoader
end AmdBundle
