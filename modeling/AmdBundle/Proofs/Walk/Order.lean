import AmdBundle.Walk.Hooks

/-!
# AmdBundle.Proofs.Walk.Order — the order in which plugins are asked

However plugins are added, they end up by level and, within a level, in the order of adding
(`plugins_foldl_add`).  This is what sorting by level makes of them, if plugins of one level keep
their order (`byLevel_eq_mergeSort`).
-/

namespace AmdBundle

def PluginLevel.rank : PluginLevel → Nat
  | pre => 0
  | normal => 1
  | post => 2

namespace Plugin

def notAfter (plugin other : Plugin) : Bool :=
  decide (plugin.level.rank ≤ other.level.rank)

theorem notAfter_iff {plugin other : Plugin} :
    plugin.notAfter other = true ↔ plugin.level.rank ≤ other.level.rank :=
  decide_eq_true_iff

theorem notAfter_trans (p q r : Plugin) (hpq : p.notAfter q = true) (hqr : q.notAfter r = true) :
    p.notAfter r = true :=
  notAfter_iff.mpr (Nat.le_trans (notAfter_iff.mp hpq) (notAfter_iff.mp hqr))

theorem notAfter_total (p q : Plugin) : (p.notAfter q || q.notAfter p) = true := by
  rw [Bool.or_eq_true, notAfter_iff, notAfter_iff]
  exact Nat.le_total _ _

end Plugin

namespace HookTable

theorem filter_byLevel (level : PluginLevel) (plugins : List Plugin) :
    (byLevel plugins).filter (fun p => p.level == level) =
      plugins.filter (fun p => p.level == level) := by
  have hfilter : ∀ other, (plugins.filter (fun p => p.level == other)).filter
      (fun p => p.level == level) =
        if other = level then plugins.filter (fun p => p.level == level) else [] := by
    intro other
    by_cases h : other = level
    · rw [if_pos h, h, List.filter_filter]
      simp
    · rw [if_neg h, List.filter_filter, List.filter_eq_nil_iff]
      intro p _ hboth
      rw [Bool.and_eq_true, beq_iff_eq, beq_iff_eq] at hboth
      exact h (hboth.2.symm.trans hboth.1)
  rw [byLevel, List.filter_append, List.filter_append, hfilter, hfilter, hfilter]
  cases level <;> simp

theorem byLevel_congr {plugins other : List Plugin}
    (h : ∀ level, plugins.filter (fun p => p.level == level) =
      other.filter (fun p => p.level == level)) : byLevel plugins = byLevel other := by
  rw [byLevel, byLevel, h, h, h]

/-- A plugin stays in front of those of its level and of later levels. -/
theorem byLevel_cons {plugin : Plugin} {plugins : List Plugin}
    (h : ∀ other ∈ plugins, plugin.notAfter other = true) :
    byLevel (plugin :: plugins) = plugin :: byLevel plugins := by
  have hbehind : ∀ level : PluginLevel, level.rank < plugin.level.rank →
      plugins.filter (fun p => p.level == level) = [] := by
    intro level hlevel
    rw [List.filter_eq_nil_iff]
    intro other hother heq
    have hle := Plugin.notAfter_iff.mp (h other hother)
    rw [beq_iff_eq.mp heq] at hle
    exact absurd hle (Nat.not_le_of_lt hlevel)
  cases hlevel : plugin.level with
  | pre => simp [byLevel, hlevel]
  | normal =>
    have hpre := hbehind .pre (by rw [hlevel]; decide)
    simp [byLevel, hlevel, hpre]
  | post =>
    have hpre := hbehind .pre (by rw [hlevel]; decide)
    have hnormal := hbehind .normal (by rw [hlevel]; decide)
    simp [byLevel, hlevel, hpre, hnormal]

theorem byLevel_eq_self {plugins : List Plugin}
    (h : plugins.Pairwise fun p q => p.notAfter q = true) : byLevel plugins = plugins := by
  induction plugins with
  | nil => rfl
  | cons plugin plugins ih =>
    obtain ⟨hplugin, hplugins⟩ := List.pairwise_cons.mp h
    rw [byLevel_cons hplugin, ih hplugins]

section Sorting

variable (plugins : List Plugin)

theorem filter_mergeSort (level : PluginLevel) :
    (plugins.mergeSort Plugin.notAfter).filter (fun p => p.level == level) =
      plugins.filter (fun p => p.level == level) := by
  have hlevel : (plugins.filter fun p => p.level == level).Pairwise
      fun p q => p.notAfter q = true := by
    rw [List.pairwise_filter]
    refine List.pairwise_of_forall fun p q hp hq => Plugin.notAfter_iff.mpr ?_
    have hsame : p.level = q.level := (beq_iff_eq.mp hp).trans (beq_iff_eq.mp hq).symm
    exact hsame ▸ Nat.le_refl _
  -- in order as they are, they go into the sorted list together, and it has no others
  have hsublist : (plugins.filter fun p => p.level == level).Sublist
      (plugins.mergeSort Plugin.notAfter) :=
    List.sublist_mergeSort Plugin.notAfter_trans Plugin.notAfter_total hlevel List.filter_sublist
  have hfiltered := hsublist.filter fun p => p.level == level
  rw [List.filter_filter] at hfiltered
  simp only [Bool.and_self] at hfiltered
  exact (hfiltered.eq_of_length
    ((List.mergeSort_perm plugins Plugin.notAfter).filter _).length_eq.symm).symm

theorem byLevel_eq_mergeSort : byLevel plugins = plugins.mergeSort Plugin.notAfter := by
  calc byLevel plugins
      = byLevel (plugins.mergeSort Plugin.notAfter) :=
        byLevel_congr fun level => (filter_mergeSort plugins level).symm
    _ = plugins.mergeSort Plugin.notAfter :=
        byLevel_eq_self
          (List.pairwise_mergeSort Plugin.notAfter_trans Plugin.notAfter_total plugins)

end Sorting

theorem byLevel_byLevel_append (plugins more : List Plugin) :
    byLevel (byLevel plugins ++ more) = byLevel (plugins ++ more) := by
  refine byLevel_congr fun level => ?_
  rw [List.filter_append, filter_byLevel, ← List.filter_append]

/-- Plugins added to a table without plugins are asked by level, each level in the order of adding.
-/
theorem plugins_foldl_add (plugins : List Plugin) :
    (plugins.foldl add empty).plugins = byLevel plugins := by
  suffices h : ∀ (table : HookTable), byLevel table.plugins = table.plugins →
      (plugins.foldl add table).plugins = byLevel (table.plugins ++ plugins) from h empty rfl
  induction plugins with
  | nil =>
    intro table htable
    rw [List.append_nil, htable]
    rfl
  | cons plugin plugins ih =>
    intro table htable
    have hordered : byLevel (table.add plugin).plugins = (table.add plugin).plugins := by
      have hagain := byLevel_byLevel_append (table.plugins ++ [plugin]) []
      rw [List.append_nil, List.append_nil] at hagain
      exact hagain
    rw [List.foldl_cons, ih _ hordered]
    show byLevel (byLevel (table.plugins ++ [plugin]) ++ plugins) = _
    rw [byLevel_byLevel_append, List.append_assoc, List.singleton_append]

end HookTable
end AmdBundle
