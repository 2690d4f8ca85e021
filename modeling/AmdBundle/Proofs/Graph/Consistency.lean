import AmdBundle.Graph.Basic

/-!
# AmdBundle.Proofs.Graph.Consistency — tables that say what the modules say

A graph is `Consistent` if its two tables can be read off its modules: an identifier leads to the
one module that has it, an absolute id to the one module that answers to it, and no module lists an
id twice.  Neither `add` nor `addAlias` sees to this on its own: they keep it where what they bring
leads nowhere yet (`Consistent.add`, `Consistent.addAlias`).
-/

namespace AmdBundle

/-- A module lists each of its ids once, and has a canonical one if it has any. -/
structure ModuleRecord.WellNamed (record : ModuleRecord) : Prop where
  nodup : record.absMidAliases.Nodup
  own_not_alias : ∀ absMid, record.absMid = some absMid → absMid ∉ record.absMidAliases
  own_first : record.absMid = none → record.absMidAliases = []

namespace ModuleRecord

variable {record : ModuleRecord} {absMid : String}

/-- A module lists each of its ids once. -/
structure ListsOnce (record : ModuleRecord) : Prop where
  nodup : record.absMidAliases.Nodup
  own_not_alias : ∀ absMid, record.absMid = some absMid → absMid ∉ record.absMidAliases

theorem listsOnce_iff : record.ListsOnce ↔ record.absMids.Nodup := by
  unfold absMids
  constructor
  · intro h
    cases hmid : record.absMid with
    | none => exact h.nodup
    | some own => exact List.nodup_cons.mpr ⟨h.own_not_alias own hmid, h.nodup⟩
  · intro h
    refine ⟨(List.nodup_append.mp h).2.1, fun own hown hmem => ?_⟩
    rw [hown, Option.toList_some, List.singleton_append, List.nodup_cons] at h
    exact h.1 hmem

theorem absMids_withAbsMid_perm (record : ModuleRecord) (absMid : String) :
    (record.withAbsMid absMid).absMids.Perm (absMid :: record.absMids) := by
  unfold withAbsMid absMids
  cases record.absMid with
  | none => exact List.Perm.refl _
  | some own =>
    show (own :: (record.absMidAliases ++ [absMid])).Perm (absMid :: own :: record.absMidAliases)
    exact ((List.perm_append_singleton absMid _).cons own).trans (List.Perm.swap absMid own _)

theorem ListsOnce.withAbsMid (h : record.ListsOnce) (hnew : ¬ record.answersTo absMid = true) :
    (record.withAbsMid absMid).ListsOnce := by
  rw [answersTo_iff] at hnew
  rw [listsOnce_iff, (absMids_withAbsMid_perm record absMid).nodup_iff, List.nodup_cons]
  exact ⟨hnew, listsOnce_iff.mp h⟩

theorem wellNamed_of_no_aliases (h : record.absMidAliases = []) : record.WellNamed :=
  ⟨by simp [h], by simp [h], fun _ => h⟩

theorem WellNamed.listsOnce (h : record.WellNamed) : record.ListsOnce :=
  ⟨h.nodup, h.own_not_alias⟩

theorem WellNamed.withAbsMid (h : record.WellNamed) (hnew : ¬ record.answersTo absMid = true) :
    (record.withAbsMid absMid).WellNamed := by
  have hlists := h.listsOnce.withAbsMid hnew
  refine ⟨hlists.nodup, hlists.own_not_alias, fun hnone => ?_⟩
  unfold ModuleRecord.withAbsMid at hnone
  cases hmid : record.absMid <;> simp [hmid] at hnone

theorem WellNamed.nodup_absMids (h : record.WellNamed) : record.absMids.Nodup :=
  listsOnce_iff.mp h.listsOnce

end ModuleRecord

namespace ModuleGraph

section AddAlias

variable {graph : ModuleGraph} {idx : Nat} {absMid : String}

theorem fst_addAlias_eq_true_iff :
    (graph.addAlias idx absMid).1 = true ↔
      ∃ record, graph.get? idx = some record ∧ ¬ record.answersTo absMid = true := by
  cases hget : graph.get? idx with
  | none => simp [addAlias_of_get?_eq_none hget]
  | some record =>
    by_cases hans : record.answersTo absMid = true
    · simp [addAlias_of_answersTo hget hans, hans]
    · simp [addAlias_of_not_answersTo hget hans, hans]

theorem fst_addAlias_eq_false_iff :
    (graph.addAlias idx absMid).1 = false ↔
      graph.get? idx = none ∨
        ∃ record, graph.get? idx = some record ∧ record.answersTo absMid = true := by
  rw [← Bool.not_eq_true, fst_addAlias_eq_true_iff]
  cases graph.get? idx <;> simp

theorem snd_addAlias_of_false (h : (graph.addAlias idx absMid).1 = false) :
    (graph.addAlias idx absMid).2 = graph := by
  rcases fst_addAlias_eq_false_iff.mp h with hnone | ⟨record, hget, hans⟩
  · rw [addAlias_of_get?_eq_none hnone]
  · rw [addAlias_of_answersTo hget hans]

/-- Only the alias may come to lead somewhere, if it is not refused and led nowhere before. -/
theorem byAbsMid?_addAlias (id : String) :
    (graph.addAlias idx absMid).2.byAbsMid? id =
      (graph.byAbsMid? id).or
        (if (graph.addAlias idx absMid).1 = true ∧ id = absMid then some idx else none) := by
  cases hadded : (graph.addAlias idx absMid).1 with
  | false => simp [snd_addAlias_of_false hadded]
  | true =>
    obtain ⟨record, hget, hans⟩ := fst_addAlias_eq_true_iff.mp hadded
    simp [byAbsMid?_addAlias_of_not_answersTo hget hans]

end AddAlias

/-- The tables say what the modules say, and every module is well named. -/
structure Consistent (graph : ModuleGraph) : Prop where
  identifier : ∀ request idx, graph.byIdentifier? request = some idx ↔
    ∃ record, graph.get? idx = some record ∧ record.request = request
  absMid : ∀ absMid idx, graph.byAbsMid? absMid = some idx ↔
    ∃ record, graph.get? idx = some record ∧ record.answersTo absMid = true
  wellNamed : ∀ idx record, graph.get? idx = some record → record.WellNamed

theorem consistent_empty : Consistent empty := by
  refine ⟨?_, ?_, ?_⟩ <;> simp [empty, byIdentifier?, byAbsMid?, get?]

namespace Consistent

variable {graph : ModuleGraph} (h : graph.Consistent)
include h

theorem idx_eq_of_request {i j : Nat} {a b : ModuleRecord} (ha : graph.get? i = some a)
    (hb : graph.get? j = some b) (heq : a.request = b.request) : i = j := by
  have hi := (h.identifier b.request i).mpr ⟨a, ha, heq⟩
  have hj := (h.identifier b.request j).mpr ⟨b, hb, rfl⟩
  exact Option.some.inj (hi.symm.trans hj)

theorem nodup_identifiers : (graph.modules.map ModuleRecord.request).Nodup := by
  rw [List.Nodup, List.pairwise_map, List.pairwise_iff_getElem]
  intro i j hi hj hlt heq
  have hsame := h.idx_eq_of_request (List.getElem?_eq_getElem hi) (List.getElem?_eq_getElem hj) heq
  omega

theorem idx_eq_of_answersTo {i j : Nat} {a b : ModuleRecord} {absMid : String}
    (ha : graph.get? i = some a) (hb : graph.get? j = some b) (hai : a.answersTo absMid = true)
    (hbj : b.answersTo absMid = true) : i = j := by
  have hi := (h.absMid absMid i).mpr ⟨a, ha, hai⟩
  have hj := (h.absMid absMid j).mpr ⟨b, hb, hbj⟩
  exact Option.some.inj (hi.symm.trans hj)

theorem not_answersTo {absMid : String} (hnew : graph.byAbsMid? absMid = none) {idx : Nat}
    {record : ModuleRecord} (hget : graph.get? idx = some record) :
    ¬ record.answersTo absMid = true := by
  intro hans
  have hsome := (h.absMid absMid idx).mpr ⟨record, hget, hans⟩
  rw [hnew] at hsome
  exact absurd hsome (by simp)

/-- A new module may be added if neither its identifier nor its ids lead anywhere. -/
theorem add {record : ModuleRecord} (hnamed : record.WellNamed)
    (hrequest : graph.byIdentifier? record.request = none)
    (hmids : ∀ absMid ∈ record.absMids, graph.byAbsMid? absMid = none) :
    (graph.add record).2.Consistent := by
  refine ⟨?_, ?_, ?_⟩
  -- the new module is behind all others, and none of these has its identifier or one of its ids
  · intro request idx
    rw [byIdentifier?_add, get?_add]
    by_cases hidx : idx = graph.size
    · subst hidx
      have hnone : ¬ graph.byIdentifier? request = some graph.size := by
        rw [h.identifier]
        simp
      by_cases hr : request = record.request <;> simp [hr, hnone, eq_comm]
    · rw [if_neg hidx, ← h.identifier]
      by_cases hr : request = record.request <;> simp [hr, hrequest, Ne.symm hidx]
  · intro absMid idx
    rw [byAbsMid?_add, get?_add]
    by_cases hidx : idx = graph.size
    · subst hidx
      have hnone : ¬ graph.byAbsMid? absMid = some graph.size := by
        rw [h.absMid]
        simp
      by_cases hm : absMid ∈ record.absMids
      · simp [hm, hmids absMid hm, ModuleRecord.answersTo_iff]
      · simp [hm, hnone, ModuleRecord.answersTo_iff]
    · rw [if_neg hidx, ← h.absMid]
      by_cases hm : absMid ∈ record.absMids
      · simp [hm, hmids absMid hm, Ne.symm hidx]
      · simp [hm]
  · intro idx other hget
    rw [get?_add] at hget
    by_cases hidx : idx = graph.size
    · rw [if_pos hidx, Option.some.injEq] at hget
      exact hget ▸ hnamed
    · rw [if_neg hidx] at hget
      exact h.wellNamed idx other hget

theorem addAlias {absMid : String} (hnew : graph.byAbsMid? absMid = none) (idx : Nat) :
    (graph.addAlias idx absMid).2.Consistent := by
  cases hget : graph.get? idx with
  | none =>
    rw [addAlias_of_get?_eq_none hget]
    exact h
  | some record =>
    -- nobody answers to the alias, so it is not refused
    have hans := h.not_answersTo hnew hget
    refine ⟨?_, ?_, ?_⟩
    · intro request i
      rw [byIdentifier?_addAlias, h.identifier, get?_addAlias_of_not_answersTo hget hans]
      by_cases hi : idx = i
      · subst hi
        simp [hget]
      · simp [hi]
    · intro id i
      rw [byAbsMid?_addAlias_of_not_answersTo hget hans, get?_addAlias_of_not_answersTo hget hans]
      by_cases hi : idx = i
      · subst hi
        have hold : graph.byAbsMid? id = some idx ↔ record.answersTo id = true := by
          simp [h.absMid, hget]
        by_cases hid : id = absMid
        · subst hid
          simp [hnew, ModuleRecord.answersTo_iff, ModuleRecord.mem_absMids_withAbsMid]
        · simp [hid, hold, ModuleRecord.answersTo_iff, ModuleRecord.mem_absMids_withAbsMid]
      · rw [if_neg hi, ← h.absMid]
        by_cases hid : id = absMid
        · simp [hid, hnew, hi]
        · simp [hid]
    · intro i other hother
      rw [get?_addAlias_of_not_answersTo hget hans] at hother
      by_cases hi : idx = i
      · rw [if_pos hi, Option.some.injEq] at hother
        exact hother ▸ (h.wellNamed idx record hget).withAbsMid hans
      · rw [if_neg hi] at hother
        exact h.wellNamed i other hother

theorem byAbsMid?_addAlias_self {absMid : String} (hnew : graph.byAbsMid? absMid = none) {idx : Nat}
    {record : ModuleRecord} (hget : graph.get? idx = some record) :
    (graph.addAlias idx absMid).2.byAbsMid? absMid = some idx := by
  rw [byAbsMid?_addAlias_of_not_answersTo hget (h.not_answersTo hnew hget), hnew]
  simp

end Consistent

section Kept

variable {graph : ModuleGraph} {absMid : String} {idx : Nat}

theorem byAbsMid?_add_of_some (h : graph.byAbsMid? absMid = some idx) (record : ModuleRecord) :
    (graph.add record).2.byAbsMid? absMid = some idx := by
  rw [byAbsMid?_add, h, Option.some_or]

theorem byAbsMid?_addAlias_of_some (h : graph.byAbsMid? absMid = some idx) (i : Nat) (id : String) :
    (graph.addAlias i id).2.byAbsMid? absMid = some idx := by
  rw [byAbsMid?_addAlias, h, Option.some_or]

end Kept

end ModuleGraph
end AmdBundle
