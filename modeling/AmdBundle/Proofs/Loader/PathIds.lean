import AmdBundle.Proofs.Loader.Normalize
import AmdBundle.Proofs.ModuleId.Compact

/-!
# AmdBundle.Proofs.Loader.PathIds — one absolute id for each path

An id that is neither verbatim nor left relative goes into its absolute form as a path, and the
module that names it has a part in what follows only by choosing the table of the map
(`normalize_eq_of_path`).  A map with no table but `*` leaves no choice (`tableFor?_eq`), so then
the path alone says what the id is, whichever module spells it relative to itself, and whoever
writes it in full (`toAbsMid_eq_of_siblingPath`).
-/

namespace AmdBundle
namespace ConfiguredLoader

open ModuleId Text

variable {loader : ConfiguredLoader} {id id' path : String} {reference reference' : Option String}

theorem normalize_eq_of_path (hid : isVerbatim id = false) (hid' : isVerbatim id' = false)
    (hpath : absolutePath? id reference = some path)
    (hpath' : absolutePath? id' reference' = some path)
    (htable : loader.tableFor? reference = loader.tableFor? reference') (depth : Nat) :
    loader.normalize depth id reference = loader.normalize depth id' reference' := by
  have hmap : loader.applyMap path reference = loader.applyMap path reference' := by
    rw [applyMap, applyMap, htable]
  unfold normalize
  simp only [hid, hid', hpath, hpath', hmap, Bool.false_eq_true, if_false]

/-- A map has no table for single modules. -/
def MapsAlike (loader : ConfiguredLoader) : Prop :=
  ∀ entry ∈ loader.config.map, entry.1 = "*"

theorem tableFor?_eq (h : loader.MapsAlike) (reference : Option String) :
    loader.tableFor? reference = loader.config.map.lookup "*" := by
  have hspecific : (loader.config.map.filter fun entry => entry.1 != "*") = [] := by
    refine List.filter_eq_nil_iff.mpr fun entry hentry => ?_
    rw [h entry hentry]
    decide
  cases reference with
  | none => rfl
  | some reference =>
    rw [tableFor?, hspecific]
    rfl

theorem isVerbatim_of_isRelative (hrelative : isRelative id = true)
    (hcolon : hasChar ':' id = false) (hending : endsWith id ".js" = false) :
    isVerbatim id = false := by
  have hhead : id.toList.head? = some '.' := by simpa [isRelative] using hrelative
  have hslash : startsWith id "/" = false := by
    obtain ⟨rest, hrest⟩ := List.head?_eq_some_iff.mp hhead
    rw [startsWith, hrest]
    rfl
  rw [isVerbatim, hslash, hcolon, hending]
  rfl

/-- **One id for a path.**  Where the map has no tables for single modules, relative ids that mean
one path beside the modules that name them have one absolute form; and so has the path itself, if it
is neither relative nor verbatim, whichever module names it, or none. -/
theorem toAbsMid_eq_of_siblingPath {reference reference' : String} (hmap : loader.MapsAlike)
    (hrelative : isRelative id = true) (hcolon : hasChar ':' id = false)
    (hending : endsWith id ".js" = false) (hrelative' : isRelative id' = true)
    (hcolon' : hasChar ':' id' = false) (hending' : endsWith id' ".js" = false)
    (hpath : siblingPath reference id = path) (hpath' : siblingPath reference' id' = path) :
    loader.toAbsMid id (some reference) = loader.toAbsMid id' (some reference') ∧
      (isRelative path = false → isVerbatim path = false → ∀ other : Option String,
        loader.toAbsMid path other = loader.toAbsMid id (some reference)) := by
  have hid := isVerbatim_of_isRelative hrelative hcolon hending
  have hid' := isVerbatim_of_isRelative hrelative' hcolon' hending'
  have hbeside : ∀ {id reference : String}, isRelative id = true → siblingPath reference id = path →
      absolutePath? id (some reference) = some path := by
    rintro id reference hrelative rfl
    exact if_pos hrelative
  have htable : ∀ reference other : Option String,
      loader.tableFor? reference = loader.tableFor? other := fun reference other =>
    (tableFor?_eq hmap reference).trans (tableFor?_eq hmap other).symm
  have hplace := hbeside hrelative hpath
  refine ⟨normalize_eq_of_path hid hid' hplace (hbeside hrelative' hpath') (htable _ _) _, ?_⟩
  intro hplain hverbatim other
  -- the path is compact already, so written in full it is its own path
  have hwhole : absolutePath? path other = some path := by
    rw [absolutePath?, hplain, if_neg Bool.false_ne_true, ← hpath, siblingPath,
      compactPath_compactPath]
  exact normalize_eq_of_path hverbatim hid hwhole hplace (htable _ _) _

/-- A map and a package for all modules. -/
def mapsToLibrary : ConfiguredLoader :=
  ⟨{ map := [("*", [("app", "lib")])], packages := [.defined "lib/widget" none (some "./boot")] },
    []⟩

/-- Two modules name the widget, each relative to itself; the map and the package apply to both
spellings, and to the full one. -/
theorem toAbsMid_eq_of_siblingPath_widget :
    mapsToLibrary.MapsAlike ∧ siblingPath "app/main" "./widget" = "app/widget" ∧
      siblingPath "app/dialog/view" ".././x/../widget" = "app/widget" ∧
      mapsToLibrary.toAbsMid "./widget" (some "app/main") = "lib/widget/boot" ∧
      mapsToLibrary.toAbsMid ".././x/../widget" (some "app/dialog/view") = "lib/widget/boot" ∧
      ∀ other, mapsToLibrary.toAbsMid "app/widget" other = "lib/widget/boot" := by
  have hmap : mapsToLibrary.MapsAlike := by
    intro entry hentry
    rw [List.mem_singleton.mp hentry]
  have hpath : siblingPath "app/main" "./widget" = "app/widget" := by decide
  have hpath' : siblingPath "app/dialog/view" ".././x/../widget" = "app/widget" := by decide
  have hid : mapsToLibrary.toAbsMid "./widget" (some "app/main") = "lib/widget/boot" := by
    decide +kernel
  obtain ⟨hsame, hwhole⟩ := toAbsMid_eq_of_siblingPath hmap (by decide) (by decide) (by decide)
    (by decide) (by decide) (by decide) hpath hpath'
  refine ⟨hmap, hpath, hpath', hid, hsame.symm.trans hid, fun other => ?_⟩
  exact (hwhole (by decide) (by decide) other).trans hid

end ConfiguredLoader
end AmdBundle
