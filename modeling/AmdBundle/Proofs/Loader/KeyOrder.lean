import AmdBundle.Proofs.Loader.Normalize
import AmdBundle.Resolver.Files
import Mathlib.Data.List.Forall2

/-!
# AmdBundle.Proofs.Loader.KeyOrder — tables do not depend on the order of their entries

A configuration gives its map, and the tables in it, by entries in some order, and each key once
(`LoaderConfig.KeysOnce`; `keysOnce_of_ofJson?` says so of all that are read).  Which key of the
map is used for a referring module (`UsesKey`) and what a path becomes (`MapsTo`) is told without
the order: by the longest keys, and by `*` where no other key covers the module.  This is what the
loader does (`applyMap_eq_iff`), so another order of the entries gives the same absolute ids.  The
aliases of a resolver are looked up in the same way (`targetPath_perm`).
-/

namespace AmdBundle

/-! ### Tables with each key once -/

namespace Table

variable {α : Type} {table : Table α} {key : String} {value : α}

theorem nodup_keys_insert (h : (table.map Prod.fst).Nodup) (key : String) (value : α) :
    ((table.insert key value).map Prod.fst).Nodup := by
  rw [insert, List.map_append]
  refine List.Nodup.append ?_ (List.nodup_singleton key) ?_
  · exact h.sublist (List.filter_sublist.map Prod.fst)
  · intro name hname hkey
    obtain ⟨entry, hentry, rfl⟩ := List.mem_map.mp hname
    have hne := (List.mem_filter.mp hentry).2
    rw [List.mem_singleton.mp hkey] at hne
    simp at hne

theorem mem_insert {entry : String × α} (h : entry ∈ table.insert key value) :
    entry ∈ table ∨ entry = (key, value) := by
  rcases List.mem_append.mp h with hold | hnew
  · exact .inl (List.mem_of_mem_filter hold)
  · exact .inr (List.mem_singleton.mp hnew)

theorem ofEntries_spec (entries : List (String × α)) :
    ((ofEntries entries).map Prod.fst).Nodup ∧ ∀ entry ∈ ofEntries entries, entry ∈ entries := by
  induction entries using List.reverseRecOn with
  | nil => exact ⟨List.nodup_nil, fun entry h => absurd h List.not_mem_nil⟩
  | append_singleton entries last ih =>
    obtain ⟨hnodup, hmem⟩ := ih
    have hlast : ofEntries (entries ++ [last]) = (ofEntries entries).insert last.1 last.2 := by
      rw [ofEntries, List.foldl_append]
      rfl
    rw [hlast]
    refine ⟨nodup_keys_insert hnodup last.1 last.2, fun entry hentry => ?_⟩
    rcases mem_insert hentry with hold | rfl
    · exact List.mem_append_left _ (hmem entry hold)
    · exact List.mem_append_right _ List.mem_cons_self

theorem lookup_eq_some_iff_mem (h : (table.map Prod.fst).Nodup) :
    List.lookup key table = some value ↔ (key, value) ∈ table := by
  constructor
  · intro hfound
    obtain ⟨before, behind, hsplit, -⟩ := List.lookup_eq_some_iff.mp hfound
    rw [hsplit]
    exact List.mem_append_right before List.mem_cons_self
  · intro hmem
    cases hfound : List.lookup key table with
    | none =>
      have hne := List.lookup_eq_none_iff.mp hfound (key, value) hmem
      simp at hne
    | some other =>
      obtain ⟨before, behind, hsplit, -⟩ := List.lookup_eq_some_iff.mp hfound
      have hother : (key, other) ∈ table := by
        rw [hsplit]
        exact List.mem_append_right before List.mem_cons_self
      have hsame := List.inj_on_of_nodup_map h hother hmem rfl
      rw [(Prod.mk.inj hsame).2]

end Table

namespace LoaderConfig

/-- The map has each key once, and so has each of its tables. -/
structure KeysOnce (config : LoaderConfig) : Prop where
  map : (config.map.map Prod.fst).Nodup
  tables : ∀ entry ∈ config.map, (entry.2.map Prod.fst).Nodup

theorem exists_of_mem_mapM {α β : Type} {f : α → Option β} {xs : List α} {ys : List β}
    (h : xs.mapM f = some ys) {y : β} (hy : y ∈ ys) : ∃ x ∈ xs, f x = some y := by
  induction xs generalizing ys with
  | nil =>
    obtain rfl : [] = ys := Option.some.inj h
    exact absurd hy List.not_mem_nil
  | cons x xs ih =>
    rw [List.mapM_cons] at h
    obtain ⟨first, hfirst, h⟩ := Option.bind_eq_some_iff.mp h
    obtain ⟨rest, hrest, hcons⟩ := Option.bind_eq_some_iff.mp h
    obtain rfl : first :: rest = ys := Option.some.inj hcons
    rcases List.mem_cons.mp hy with rfl | hy
    · exact ⟨x, List.mem_cons_self, hfirst⟩
    · obtain ⟨x', hx', hf⟩ := ih hrest hy
      exact ⟨x', List.mem_cons_of_mem _ hx', hf⟩

theorem nodup_of_textsOfJson? {value : Json} {table : Table String}
    (h : textsOfJson? value = some table) : (table.map Prod.fst).Nodup := by
  obtain ⟨members, -, h⟩ := Option.bind_eq_some_iff.mp h
  obtain ⟨entries, -, hentries⟩ := Option.bind_eq_some_iff.mp h
  obtain rfl : Table.ofEntries entries = table := Option.some.inj hentries
  exact (Table.ofEntries_spec entries).1

theorem keysOnce_of_mapOfJson? {value : Json} {map : Table (Table String)}
    (h : mapOfJson? value = some map) :
    (map.map Prod.fst).Nodup ∧ ∀ entry ∈ map, (entry.2.map Prod.fst).Nodup := by
  obtain ⟨members, -, h⟩ := Option.bind_eq_some_iff.mp h
  obtain ⟨entries, hentries, hmap⟩ := Option.bind_eq_some_iff.mp h
  obtain rfl : Table.ofEntries entries = map := Option.some.inj hmap
  obtain ⟨hnodup, hmem⟩ := Table.ofEntries_spec entries
  refine ⟨hnodup, fun entry hentry => ?_⟩
  obtain ⟨member, -, hmember⟩ := exists_of_mem_mapM hentries (hmem entry hentry)
  obtain ⟨table, htable, hpair⟩ := Option.bind_eq_some_iff.mp hmember
  obtain rfl : (member.1, table) = entry := Option.some.inj hpair
  exact nodup_of_textsOfJson? htable

theorem keysOnce_of_ofFields? {packages map aliases has : Option Json} {config : LoaderConfig}
    (h : ofFields? packages map aliases has = some config) : config.KeysOnce := by
  obtain ⟨packages', -, h⟩ := Option.bind_eq_some_iff.mp h
  obtain ⟨map', hmap, h⟩ := Option.bind_eq_some_iff.mp h
  obtain ⟨aliases', -, h⟩ := Option.bind_eq_some_iff.mp h
  obtain ⟨has', -, h⟩ := Option.bind_eq_some_iff.mp h
  obtain rfl := Option.some.inj h
  cases map with
  | none =>
    obtain rfl : [] = map' := Option.some.inj hmap
    exact ⟨List.nodup_nil, fun entry h => absurd h List.not_mem_nil⟩
  | some value =>
    obtain ⟨hkeys, htables⟩ := keysOnce_of_mapOfJson? hmap
    exact ⟨hkeys, htables⟩

theorem keysOnce_of_ofJson? {value : Json} {config : LoaderConfig}
    (h : ofJson? value = some config) : config.KeysOnce := by
  unfold ofJson? at h
  split at h
  · obtain ⟨_, -, h⟩ := Option.bind_eq_some_iff.mp h
    obtain ⟨_, -, h⟩ := Option.bind_eq_some_iff.mp h
    obtain ⟨_, -, h⟩ := Option.bind_eq_some_iff.mp h
    obtain ⟨_, -, h⟩ := Option.bind_eq_some_iff.mp h
    exact keysOnce_of_ofFields? h
  · split at h
    · exact keysOnce_of_ofFields? h
    · simp at h
  · simp at h

end LoaderConfig

/-! ### Which key of the map is used -/

namespace ConfiguredLoader

open ModuleId Text

variable {loader other : ConfiguredLoader} {map map' : Table (Table String)}
  {table table' : Table String} {reference : Option String} {key key' id path result : String}

/-- The key of the map whose table is for the referring module. -/
inductive UsesKey (map : Table (Table String)) (reference : Option String) : String → Prop
  /-- The longest key, `*` apart, that covers the module. -/
  | specific {context key : String} (hreference : reference = some context)
      (hlongest : IsLongestCover ((map.map Prod.fst).filter (· != "*")) context key) :
      UsesKey map reference key
  /-- `*`, where no other key covers the module, or there is no module. -/
  | star (hstar : "*" ∈ map.map Prod.fst)
      (hnone : ∀ context, reference = some context →
        ∀ key ∈ map.map Prod.fst, key ≠ "*" → ¬ Covers key context) :
      UsesKey map reference "*"

theorem mem_filter_ne_star {keys : List String} :
    key ∈ keys.filter (· != "*") ↔ key ∈ keys ∧ key ≠ "*" := by
  rw [List.mem_filter, bne_iff_ne]

theorem UsesKey.mem (h : UsesKey map reference key) : key ∈ map.map Prod.fst := by
  cases h with
  | specific _ hlongest => exact (mem_filter_ne_star.mp hlongest.mem).1
  | star hstar _ => exact hstar

theorem usesKey_star_iff :
    UsesKey map reference "*" ↔ "*" ∈ map.map Prod.fst ∧ ∀ context, reference = some context →
      ∀ key ∈ map.map Prod.fst, key ≠ "*" → ¬ Covers key context := by
  constructor
  · intro h
    cases h with
    | specific _ hlongest => exact absurd rfl (mem_filter_ne_star.mp hlongest.mem).2
    | star hstar hnone => exact ⟨hstar, hnone⟩
  · rintro ⟨hstar, hnone⟩
    exact .star hstar hnone

theorem UsesKey.unique (h : UsesKey map reference key) (h' : UsesKey map reference key') :
    key = key' := by
  cases h with
  | specific hreference hlongest =>
    cases h' with
    | specific hreference' hlongest' =>
      obtain rfl := Option.some.inj (hreference.symm.trans hreference')
      exact hlongest.unique hlongest'
    | star _ hnone =>
      obtain ⟨hmem, hne⟩ := mem_filter_ne_star.mp hlongest.mem
      exact absurd hlongest.covers (hnone _ hreference _ hmem hne)
  | star _ hnone =>
    cases h' with
    | specific hreference' hlongest' =>
      obtain ⟨hmem, hne⟩ := mem_filter_ne_star.mp hlongest'.mem
      exact absurd hlongest'.covers (hnone _ hreference' _ hmem hne)
    | star _ _ => rfl

theorem UsesKey.of_perm (hkeys : (map.map Prod.fst).Perm (map'.map Prod.fst))
    (h : UsesKey map reference key) : UsesKey map' reference key := by
  cases h with
  | specific hreference hlongest =>
    exact .specific hreference (hlongest.of_perm (hkeys.filter _))
  | star hstar hnone =>
    refine .star (hkeys.mem_iff.mp hstar) fun context hreference name hname => ?_
    exact hnone context hreference name (hkeys.mem_iff.mpr hname)

theorem exists_table (h : key ∈ map.map Prod.fst) : ∃ table, (key, table) ∈ map := by
  obtain ⟨entry, hentry, rfl⟩ := List.mem_map.mp h
  exact ⟨entry.2, hentry⟩

section Tables

variable (hkeys : (loader.config.map.map Prod.fst).Nodup)

include hkeys

theorem tableFor?_eq_some_iff :
    loader.tableFor? reference = some table ↔
      ∃ key, UsesKey loader.config.map reference key ∧ (key, table) ∈ loader.config.map := by
  have hnames : (loader.config.map.filter fun entry => entry.1 != "*").map Prod.fst =
      (loader.config.map.map Prod.fst).filter (· != "*") := by
    rw [List.filter_map]
    rfl
  have hnodup : ((loader.config.map.filter fun entry => entry.1 != "*").map Prod.fst).Nodup := by
    rw [hnames]
    exact hkeys.filter _
  rw [tableFor?]
  cases hspecific : reference.bind fun reference =>
      longestCover (loader.config.map.filter fun entry => entry.1 != "*") reference with
  | some entry =>
    -- a key that covers the module goes before `*`
    obtain ⟨context, hreference, hcover⟩ := Option.bind_eq_some_iff.mp hspecific
    have huses : UsesKey loader.config.map reference entry.1 :=
      .specific hreference (hnames ▸ isLongestCover_of_longestCover hcover)
    have hentry : entry ∈ loader.config.map := List.mem_of_mem_filter (mem_of_longestCover hcover)
    dsimp only
    constructor
    · intro htable
      obtain rfl := Option.some.inj htable
      exact ⟨entry.1, huses, hentry⟩
    · rintro ⟨key, hkey, hmem⟩
      have hsame : (key, table) = entry :=
        List.inj_on_of_nodup_map hkeys hmem hentry (hkey.unique huses)
      rw [← hsame]
  | none =>
    -- no key but `*` is left
    have hnone : ∀ context, reference = some context → ∀ key ∈ loader.config.map.map Prod.fst,
        key ≠ "*" → ¬ Covers key context := by
      intro context hreference key hkey hne
      rw [hreference, Option.bind_some, longestCover_eq_none_iff, hnames] at hspecific
      exact hspecific key (mem_filter_ne_star.mpr ⟨hkey, hne⟩)
    dsimp only
    rw [Table.lookup_eq_some_iff_mem hkeys]
    constructor
    · intro hmem
      exact ⟨"*", .star (List.mem_map_of_mem hmem) hnone, hmem⟩
    · rintro ⟨key, hkey, hmem⟩
      have hstar : UsesKey loader.config.map reference "*" := by
        cases hkey with
        | specific hreference hlongest =>
          obtain ⟨hname, hne⟩ := mem_filter_ne_star.mp hlongest.mem
          exact absurd hlongest.covers (hnone _ hreference _ hname hne)
        | star hstar _ => exact .star hstar hnone
      rwa [hkey.unique hstar] at hmem

theorem tableFor?_eq_none_iff :
    loader.tableFor? reference = none ↔ ∀ key, ¬ UsesKey loader.config.map reference key := by
  constructor
  · intro hnone key hkey
    obtain ⟨table, htable⟩ := exists_table hkey.mem
    have hsome := (tableFor?_eq_some_iff hkeys).mpr ⟨key, hkey, htable⟩
    rw [hnone] at hsome
    exact absurd hsome (by simp)
  · intro h
    cases htable : loader.tableFor? reference with
    | none => rfl
    | some table =>
      obtain ⟨key, hkey, -⟩ := (tableFor?_eq_some_iff hkeys).mp htable
      exact absurd hkey (h key)

end Tables

/-! ### What a path becomes -/

/-- What the map makes of a path as a module names it. -/
inductive MapsTo (map : Table (Table String)) (reference : Option String) (path : String) :
    String → Prop
  /-- No table is for the module. -/
  | untabled (h : ∀ key, ¬ UsesKey map reference key) : MapsTo map reference path path
  /-- No key of the table covers the path. -/
  | uncovered {key : String} {table : Table String} (hkey : UsesKey map reference key)
      (htable : (key, table) ∈ map) (h : ∀ name ∈ table.map Prod.fst, ¬ Covers name path) :
      MapsTo map reference path path
  /-- The longest key that covers the path gives way to what stands under it. -/
  | replaced {key name replacement rest : String} {table : Table String}
      (hkey : UsesKey map reference key) (htable : (key, table) ∈ map)
      (hname : IsLongestCover (table.map Prod.fst) path name)
      (hentry : (name, replacement) ∈ table) (hpath : path = name ++ rest) :
      MapsTo map reference path (replacement ++ rest)

theorem applyTable_of_none (h : longestCover table path = none) : applyTable table path = path := by
  rw [applyTable, h]

theorem applyTable_of_some {name replacement rest : String}
    (h : longestCover table path = some (name, replacement)) (hpath : path = name ++ rest) :
    applyTable table path = replacement ++ rest := by
  obtain ⟨tail, htail⟩ := exists_coveredBy? (longestCover_spec h).2.1
  have hsame : rest = tail := by
    have happend := hpath.symm.trans (coveredBy?_eq_some_iff.mp htail).1
    exact String.append_right_inj name |>.mp happend
  rw [applyTable, h]
  dsimp only at htail ⊢
  rw [htail, hsame]
  rfl

theorem applyMap_eq_iff (hkeys : loader.config.KeysOnce) :
    loader.applyMap path reference = result ↔
      MapsTo loader.config.map reference path result := by
  rw [applyMap]
  constructor
  · rintro rfl
    cases htable : loader.tableFor? reference with
    | none => exact .untabled ((tableFor?_eq_none_iff hkeys.map).mp htable)
    | some table =>
      obtain ⟨key, hkey, hmem⟩ := (tableFor?_eq_some_iff hkeys.map).mp htable
      dsimp only
      cases hfound : longestCover table path with
      | none =>
        rw [applyTable_of_none hfound]
        exact .uncovered hkey hmem (longestCover_eq_none_iff.mp hfound)
      | some entry =>
        obtain ⟨name, replacement⟩ := entry
        obtain ⟨rest, hrest⟩ := exists_coveredBy? (longestCover_spec hfound).2.1
        have hpath : path = name ++ rest := (coveredBy?_eq_some_iff.mp hrest).1
        rw [applyTable_of_some hfound hpath]
        exact .replaced hkey hmem (isLongestCover_of_longestCover hfound)
          (mem_of_longestCover hfound) hpath
  · intro h
    cases h with
    | untabled h => rw [(tableFor?_eq_none_iff hkeys.map).mpr h]
    | uncovered hkey hmem h =>
      rw [(tableFor?_eq_some_iff hkeys.map).mpr ⟨_, hkey, hmem⟩]
      exact applyTable_of_none (longestCover_eq_none_iff.mpr h)
    | replaced hkey hmem hname hentry hpath =>
      rw [(tableFor?_eq_some_iff hkeys.map).mpr ⟨_, hkey, hmem⟩]
      have hfound := (longestCover_eq_some_iff (hkeys.tables _ hmem)).mpr ⟨hentry, hname⟩
      exact applyTable_of_some hfound hpath

/-! ### Another order of the entries -/

/-- The same tables under the same keys, whatever the order of the keys and of the entries of each
table. -/
def Reordered (map map' : Table (Table String)) : Prop :=
  ∃ middle, map.Perm middle ∧
    List.Forall₂ (fun entry entry' => entry.1 = entry'.1 ∧ entry.2.Perm entry'.2) middle map'

theorem Reordered.keys (h : Reordered map map') :
    (map.map Prod.fst).Perm (map'.map Prod.fst) := by
  obtain ⟨middle, hperm, htables⟩ := h
  have hsame : middle.map Prod.fst = map'.map Prod.fst := by
    rw [← List.forall₂_eq_eq_eq, List.forall₂_map_left_iff, List.forall₂_map_right_iff]
    exact htables.imp fun _ _ hentry => hentry.1
  rw [← hsame]
  exact hperm.map Prod.fst

theorem Reordered.exists_mem (h : Reordered map map') (hmem : (key, table) ∈ map) :
    ∃ table', (key, table') ∈ map' ∧ table.Perm table' := by
  obtain ⟨middle, hperm, htables⟩ := h
  have hmiddle := hperm.mem_iff.mp hmem
  clear hperm hmem
  induction htables with
  | nil => exact absurd hmiddle List.not_mem_nil
  | @cons entry entry' middle map' hentry _ ih =>
    rcases List.mem_cons.mp hmiddle with rfl | hrest
    · obtain ⟨hkey, hperm⟩ := hentry
      dsimp only at hkey
      exact ⟨entry'.2, by rw [hkey]; exact List.mem_cons_self, hperm⟩
    · obtain ⟨table', hmem, hperm⟩ := ih hrest
      exact ⟨table', List.mem_cons_of_mem _ hmem, hperm⟩

theorem applyTable_perm (hkeys : (table.map Prod.fst).Nodup) (h : table.Perm table')
    (path : String) : applyTable table' path = applyTable table path := by
  rw [applyTable, applyTable, longestCover_perm hkeys h]

theorem applyMap_reordered (hkeys : loader.config.KeysOnce)
    (h : Reordered loader.config.map other.config.map) (path : String)
    (reference : Option String) :
    other.applyMap path reference = loader.applyMap path reference := by
  have hkeys' : (other.config.map.map Prod.fst).Nodup := h.keys.nodup_iff.mp hkeys.map
  rw [applyMap, applyMap]
  cases htable : loader.tableFor? reference with
  | none =>
    have hnone : other.tableFor? reference = none := by
      rw [tableFor?_eq_none_iff hkeys']
      intro key hkey
      exact (tableFor?_eq_none_iff hkeys.map).mp htable key (hkey.of_perm h.keys.symm)
    rw [hnone]
  | some table =>
    obtain ⟨key, hkey, hmem⟩ := (tableFor?_eq_some_iff hkeys.map).mp htable
    obtain ⟨table', hmem', hperm⟩ := h.exists_mem hmem
    have hsome : other.tableFor? reference = some table' :=
      (tableFor?_eq_some_iff hkeys').mpr ⟨key, hkey.of_perm h.keys, hmem'⟩
    rw [hsome]
    exact applyTable_perm (hkeys.tables _ hmem) hperm path

/-- The map makes of the path of an id what the packages and the aliases are applied to. -/
theorem normalize_of_applyMap (hverbatim : isVerbatim id = false)
    (hpath : absolutePath? id reference = some path) (hrelative : isRelative path = false)
    (hmap : loader.applyMap path reference = result) (depth : Nat) :
    loader.normalize (depth + 1) id reference =
      ((loader.matchAlias? (loader.applyPackages result)).map (loader.normalize depth · none)).getD
        (loader.applyPackages result) := by
  conv_lhs => unfold normalize
  rw [if_neg (by simp [hverbatim]), hpath]
  dsimp only
  rw [if_neg (by simp [hrelative]), hmap]
  cases loader.matchAlias? (loader.applyPackages result) <;> simp

theorem normalize_eq_of_applyMap_eq (hpackages : other.config.packages = loader.config.packages)
    (haliases : other.aliases = loader.aliases)
    (hmap : ∀ path reference, other.applyMap path reference = loader.applyMap path reference)
    (depth : Nat) (id : String) (reference : Option String) :
    other.normalize depth id reference = loader.normalize depth id reference := by
  have hmapped : ∀ path reference, other.applyPackages (other.applyMap path reference) =
      loader.applyPackages (loader.applyMap path reference) := by
    intro path reference
    rw [hmap, applyPackages, applyPackages, LoaderConfig.package?, LoaderConfig.package?,
      hpackages]
  have halias : ∀ id, other.matchAlias? id = loader.matchAlias? id := by
    intro id
    rw [matchAlias?, matchAlias?, haliases]
  -- the map has its part once at each depth, before the alias that starts over
  induction depth generalizing id reference with
  | zero =>
    unfold normalize
    simp only [hmapped]
  | succ depth ih =>
    unfold normalize
    by_cases hverbatim : isVerbatim id = true
    · rw [if_pos hverbatim, if_pos hverbatim]
    · rw [if_neg hverbatim, if_neg hverbatim]
      cases absolutePath? id reference with
      | none => rfl
      | some path =>
        dsimp only
        rw [hmapped, halias]
        cases loader.matchAlias? (loader.applyPackages (loader.applyMap path reference)) with
        | none => rfl
        | some replacement =>
          dsimp only
          rw [ih]

end ConfiguredLoader

theorem FileResolver.targetPath_perm {π : Type} [PathKind π] {files : FileResolver π}
    {aliases : List (String × π)} (hkeys : (files.aliases.map Prod.fst).Nodup)
    (h : files.aliases.Perm aliases) (specifier : String) (context : π) :
    ({ files with aliases } : FileResolver π).targetPath specifier context =
      files.targetPath specifier context := by
  rw [targetPath, targetPath, idPath, idPath, ModuleId.longestCover_perm hkeys h]

namespace ConfiguredLoader

open ModuleId

/-- **Order of entries.**  Absolute ids are the same for every order of the entries of the map and
of its tables.  What the map makes of the path of an id is what the packages and the aliases are
applied to, and it is told by the longest keys: the key of the map that is used is the longest one
besides `*` that covers the referring module, and `*`, if it is there, exactly where none does or no
module is named; no other key is used; and in the table under it the longest key that covers the
path, of which there is one at most, is replaced.  A configuration that was read has each key once.
Nor does the order of a resolver's aliases change where it looks, if no two have one prefix. -/
theorem longestKeys_anyOrder (loader : ConfiguredLoader) (hkeys : loader.config.KeysOnce) :
    (∀ map, Reordered loader.config.map map → ∀ id reference,
      ({ loader with config := { loader.config with map } } : ConfiguredLoader).toAbsMid id
          reference = loader.toAbsMid id reference) ∧
    (∀ depth id reference path result, isVerbatim id = false →
      absolutePath? id reference = some path → isRelative path = false →
      MapsTo loader.config.map reference path result →
        loader.normalize (depth + 1) id reference =
          ((loader.matchAlias? (loader.applyPackages result)).map
            (loader.normalize depth · none)).getD (loader.applyPackages result)) ∧
    (∀ path reference result, loader.applyMap path reference = result ↔
      MapsTo loader.config.map reference path result) ∧
    (∀ reference key key', UsesKey loader.config.map reference key →
      UsesKey loader.config.map reference key' → key = key') ∧
    (∀ names path name name', IsLongestCover names path name → IsLongestCover names path name' →
      name = name') ∧
    (∀ reference, UsesKey loader.config.map reference "*" ↔
      "*" ∈ loader.config.map.map Prod.fst ∧ ∀ context, reference = some context →
        ∀ key ∈ loader.config.map.map Prod.fst, key ≠ "*" → ¬ Covers key context) ∧
    (∀ value config, LoaderConfig.ofJson? value = some config → config.KeysOnce) ∧
    ∀ (π : Type) [PathKind π] (files : FileResolver π) (aliases : List (String × π)),
      (files.aliases.map Prod.fst).Nodup → files.aliases.Perm aliases →
        ∀ specifier context,
          ({ files with aliases } : FileResolver π).targetPath specifier context =
            files.targetPath specifier context := by
  refine ⟨fun map hmap => ?_, ?_, fun path reference result => applyMap_eq_iff hkeys,
    fun reference key key' => UsesKey.unique, fun names path name name' => IsLongestCover.unique,
    fun reference => usesKey_star_iff, fun value config => LoaderConfig.keysOnce_of_ofJson?,
    fun π _ files aliases => FileResolver.targetPath_perm⟩
  · let other : ConfiguredLoader := { loader with config := { loader.config with map } }
    have hpaths : ∀ path reference, other.applyMap path reference =
        loader.applyMap path reference := applyMap_reordered hkeys hmap
    have hids := @normalize_eq_of_applyMap_eq loader other rfl rfl hpaths maxAliasDepth
    exact hids
  · intro depth id reference path result hverbatim hpath hrelative hmaps
    exact normalize_of_applyMap hverbatim hpath hrelative ((applyMap_eq_iff hkeys).mpr hmaps) depth

/-- A map for all modules, for those of one package, and for those of a part of it. -/
def mapsByPlace : ConfiguredLoader :=
  ⟨{ map := [
      ("*", [("events", "events/new")]),
      ("legacy", [("events", "events/old"), ("events/on", "listen")]),
      ("legacy/deep", [("events", "events/older")])] }, []⟩

/-- The same map the other way round. -/
def mapsByPlaceTurned : Table (Table String) := [
  ("legacy/deep", [("events", "events/older")]),
  ("legacy", [("events/on", "listen"), ("events", "events/old")]),
  ("*", [("events", "events/new")])]

/-- Three modules name one id, and the map says which it is for each, from both ends; so do two
aliases, of which one begins the other. -/
theorem longestKeys_anyOrder_byPlace :
    mapsByPlace.config.KeysOnce ∧ Reordered mapsByPlace.config.map mapsByPlaceTurned ∧
      ({ mapsByPlace with config := { mapsByPlace.config with map := mapsByPlaceTurned } } :
        ConfiguredLoader).toAbsMid "events/on/click" (some "legacy/view") = "listen/click" ∧
      MapsTo mapsByPlace.config.map (some "legacy/deep/view") "events/on" "events/older/on" ∧
      UsesKey mapsByPlace.config.map (some "legacyview") "*" ∧
      ({ aliases := [("app/lib", "/lib"), ("app", "/src")] } : FileResolver).targetPath
        "app/lib/on" "/" = .ok "/lib/on" := by
  have hkeys : mapsByPlace.config.KeysOnce := ⟨by decide, by decide⟩
  have hturned : Reordered mapsByPlace.config.map mapsByPlaceTurned := by
    refine ⟨mapsByPlace.config.map.reverse, (List.reverse_perm _).symm, ?_⟩
    exact .cons ⟨rfl, by decide⟩ (.cons ⟨rfl, by decide⟩ (.cons ⟨rfl, by decide⟩ .nil))
  obtain ⟨hids, -, hmaps, -, -, hstar, -, hfiles⟩ := longestKeys_anyOrder mapsByPlace hkeys
  refine ⟨hkeys, hturned, ?_, ?_, ?_, ?_⟩
  · rw [hids mapsByPlaceTurned hturned]
    decide +kernel
  · rw [← hmaps]
    decide +kernel
  · rw [hstar]
    refine ⟨by decide, fun context hcontext => ?_⟩
    obtain rfl := Option.some.inj hcontext
    simp only [← isSome_coveredBy?_iff]
    decide +kernel
  · let files : FileResolver := { aliases := [("app", "/src"), ("app/lib", "/lib")] }
    have hsame := hfiles String files [("app/lib", "/lib"), ("app", "/src")] (by decide) (by decide)
    rw [hsame]
    decide +kernel

end ConfiguredLoader
end AmdBundle
