import AmdBundle.Proofs.Graph.Identifiers
import Mathlib.Data.List.Induction
import Mathlib.Order.Bounds.Defs

/-!
# AmdBundle.Proofs.Graph.Updates — the tables after any updates

Modules and aliases may come in any order, and with them identifiers and absolute ids as often as
one likes, for one module or for several.  Unlike `Consistent` nothing here is asked of them.  The
tables stay right (`Indexed`), nothing that they say of absolute ids is taken back (`KeepsIds`), and
no module comes to list an id twice.  Each is shown for one update and from this for all of them;
`lookups_afterUpdates` sums up.
-/

namespace AmdBundle

namespace ModuleRecord

variable {record : ModuleRecord} {absMid : String}

theorem ListsOnce.reachedUnder (h : record.ListsOnce) (absMid : String) :
    (record.reachedUnder absMid).ListsOnce := by
  unfold ModuleRecord.reachedUnder
  split
  · exact h
  · rename_i hnew
    exact h.withAbsMid hnew

theorem absMid_reachedUnder_of_some {own : String} (h : record.absMid = some own)
    (absMid : String) : (record.reachedUnder absMid).absMid = some own := by
  unfold ModuleRecord.reachedUnder
  split
  · exact h
  · simp [withAbsMid, h]

end ModuleRecord

namespace ModuleGraph

/-- What can be done to a graph. -/
inductive Update where
  | add (record : ModuleRecord)
  | addAlias (idx : Nat) (absMid : String)

def updated (graph : ModuleGraph) : Update → ModuleGraph
  | .add record => (graph.add record).2
  | .addAlias idx absMid => (graph.addAlias idx absMid).2

def afterUpdates (graph : ModuleGraph) (updates : List Update) : ModuleGraph :=
  updates.foldl updated graph

variable {graph graph' : ModuleGraph} {idx : Nat} {record : ModuleRecord} {absMid : String}

@[simp] theorem afterUpdates_nil : graph.afterUpdates [] = graph := rfl

@[simp] theorem afterUpdates_concat (updates : List Update) (update : Update) :
    graph.afterUpdates (updates ++ [update]) = (graph.afterUpdates updates).updated update := by
  simp [afterUpdates]

/-! ### Where identifiers and ids lead -/

/-- The tables lead to modules that have what was looked up, and to one of them wherever there is
one: an absolute id to some module, an identifier to the last. -/
structure Indexed (graph : ModuleGraph) : Prop where
  answers : ∀ absMid idx, graph.byAbsMid? absMid = some idx →
    ∃ record, graph.get? idx = some record ∧ record.answersTo absMid = true
  known : ∀ absMid idx record, graph.get? idx = some record → record.answersTo absMid = true →
    (graph.byAbsMid? absMid).isSome
  last : ∀ request idx, graph.byIdentifier? request = some idx ↔
    IsGreatest {i | graph.identifierAt? i = some request} idx

theorem indexed_empty : empty.Indexed := by
  refine ⟨by simp [empty, byAbsMid?], by simp [empty, get?], fun request idx => ?_⟩
  refine ⟨by simp [empty, byIdentifier?], fun h => ?_⟩
  have hmem : empty.identifierAt? idx = some request := h.1
  simp [identifierAt?, get?, empty] at hmem

namespace Indexed

theorem last_add (h : graph.Indexed) (record : ModuleRecord) (request : String) (idx : Nat) :
    (graph.add record).2.byIdentifier? request = some idx ↔
      IsGreatest {i | (graph.add record).2.identifierAt? i = some request} idx := by
  rw [byIdentifier?_add]
  by_cases hrequest : request = record.request
  · rw [if_pos hrequest]
    have hnew : (graph.add record).2.identifierAt? graph.size = some request := by
      rw [identifierAt?_add, if_pos rfl, hrequest]
    have hbound : graph.size ∈
        upperBounds {i | (graph.add record).2.identifierAt? i = some request} := by
      intro i hi
      have hlt := lt_size_of_identifierAt? hi
      rw [size_add] at hlt
      omega
    constructor
    · intro hidx
      rw [← Option.some.inj hidx]
      exact ⟨hnew, hbound⟩
    · rintro ⟨hmem, hupper⟩
      exact congrArg some (Nat.le_antisymm (hupper hnew) (hbound hmem))
  · have hsame : ∀ i, (graph.add record).2.identifierAt? i = some request ↔
        graph.identifierAt? i = some request := by
      intro i
      rw [identifierAt?_add]
      by_cases hi : i = graph.size
      · simp [hi, Ne.symm hrequest, identifierAt?]
      · rw [if_neg hi]
    simp only [if_neg hrequest, hsame]
    exact h.last request idx

theorem add (h : graph.Indexed) (record : ModuleRecord) : (graph.add record).2.Indexed := by
  refine ⟨fun absMid idx hidx => ?_, fun absMid idx other hget hans => ?_, h.last_add record⟩
  · rw [byAbsMid?_add] at hidx
    rcases Option.or_eq_some_iff.mp hidx with hold | ⟨-, hnew⟩
    · obtain ⟨old, hget, hans⟩ := h.answers absMid idx hold
      refine ⟨old, ?_, hans⟩
      rw [get?_add, if_neg (Nat.ne_of_lt (lt_size_of_get? hget)), hget]
    · split at hnew
      · rename_i hmem
        refine ⟨record, ?_, ModuleRecord.answersTo_iff.mpr hmem⟩
        rw [get?_add, if_pos (Option.some.inj hnew).symm]
      · simp at hnew
  · rw [byAbsMid?_add, Option.isSome_or]
    rw [get?_add] at hget
    split at hget
    · rw [← Option.some.inj hget, ModuleRecord.answersTo_iff] at hans
      simp [hans]
    · simp [h.known absMid idx other hget hans]

theorem addAlias (h : graph.Indexed) (idx : Nat) (absMid : String) :
    (graph.addAlias idx absMid).2.Indexed := by
  refine ⟨fun id i hi => ?_, fun id i other hget hans => ?_, fun request i => ?_⟩
  · rw [get?_addAlias]
    rw [byAbsMid?_addAlias] at hi
    rcases Option.or_eq_some_iff.mp hi with hold | ⟨-, hnew⟩
    · obtain ⟨record, hget, hans⟩ := h.answers id i hold
      split
      · exact ⟨record.reachedUnder absMid, by rw [hget, Option.map_some],
          ModuleRecord.answersTo_reachedUnder.mpr (.inl hans)⟩
      · exact ⟨record, hget, hans⟩
    · split at hnew
      · rename_i hadded
        obtain ⟨record, hget, -⟩ := fst_addAlias_eq_true_iff.mp hadded.1
        obtain rfl := Option.some.inj hnew
        rw [if_pos rfl]
        exact ⟨record.reachedUnder absMid, by rw [hget, Option.map_some],
          ModuleRecord.answersTo_reachedUnder.mpr (.inr hadded.2.symm)⟩
      · simp at hnew
  · rw [byAbsMid?_addAlias, Option.isSome_or, Bool.or_eq_true]
    rw [get?_addAlias] at hget
    split at hget
    · rename_i hi
      obtain ⟨old, hold, rfl⟩ := Option.map_eq_some_iff.mp hget
      by_cases hknown : old.answersTo id = true
      · exact .inl (h.known id i old hold hknown)
      · -- the module did not answer to the id before, so this is the alias it just got
        rcases ModuleRecord.answersTo_reachedUnder.mp hans with hanswered | rfl
        · exact absurd hanswered hknown
        · have hadded := fst_addAlias_eq_true_iff.mpr ⟨old, hi ▸ hold, hknown⟩
          rw [if_pos ⟨hadded, rfl⟩]
          exact .inr rfl
    · exact .inl (h.known id i other hget hans)
  · rw [byIdentifier?_addAlias]
    simp only [identifierAt?_addAlias]
    exact h.last request i

theorem updated (h : graph.Indexed) (update : Update) : (graph.updated update).Indexed := by
  cases update with
  | add record => exact h.add record
  | addAlias idx absMid => exact h.addAlias idx absMid

theorem afterUpdates (h : graph.Indexed) (updates : List Update) :
    (graph.afterUpdates updates).Indexed := by
  induction updates using List.reverseRecOn with
  | nil => exact h
  | append_singleton updates update ih =>
    rw [afterUpdates_concat]
    exact ih.updated update

end Indexed

/-! ### What stays -/

def ownId? (graph : ModuleGraph) (idx : Nat) : Option String :=
  (graph.get? idx).bind ModuleRecord.absMid

/-- Absolute ids go on to lead where they lead, and modules keep the own ids they have. -/
structure KeepsIds (graph later : ModuleGraph) : Prop where
  leads : ∀ absMid idx, graph.byAbsMid? absMid = some idx → later.byAbsMid? absMid = some idx
  own : ∀ idx absMid, graph.ownId? idx = some absMid → later.ownId? idx = some absMid

namespace KeepsIds

theorem refl (graph : ModuleGraph) : KeepsIds graph graph := ⟨fun _ _ h => h, fun _ _ h => h⟩

theorem trans {later : ModuleGraph} (h : KeepsIds graph graph') (h' : KeepsIds graph' later) :
    KeepsIds graph later :=
  ⟨fun absMid idx hidx => h'.leads absMid idx (h.leads absMid idx hidx),
    fun idx absMid hown => h'.own idx absMid (h.own idx absMid hown)⟩

theorem add (graph : ModuleGraph) (record : ModuleRecord) : KeepsIds graph (graph.add record).2 := by
  refine ⟨fun absMid idx h => byAbsMid?_add_of_some h record, fun idx absMid h => ?_⟩
  obtain ⟨old, hget, hmid⟩ := Option.bind_eq_some_iff.mp h
  rw [ownId?, get?_add, if_neg (Nat.ne_of_lt (lt_size_of_get? hget)), hget]
  exact hmid

theorem addAlias (graph : ModuleGraph) (place : Nat) (id : String) :
    KeepsIds graph (graph.addAlias place id).2 := by
  refine ⟨fun absMid idx h => byAbsMid?_addAlias_of_some h place id, fun idx absMid h => ?_⟩
  obtain ⟨old, hget, hmid⟩ := Option.bind_eq_some_iff.mp h
  rw [ownId?, get?_addAlias, hget]
  split
  · exact ModuleRecord.absMid_reachedUnder_of_some hmid id
  · exact hmid

theorem updated (graph : ModuleGraph) (update : Update) :
    KeepsIds graph (graph.updated update) := by
  cases update with
  | add record => exact add graph record
  | addAlias idx absMid => exact addAlias graph idx absMid

theorem afterUpdates (graph : ModuleGraph) (updates : List Update) :
    KeepsIds graph (graph.afterUpdates updates) := by
  induction updates using List.reverseRecOn with
  | nil => exact refl graph
  | append_singleton updates update ih =>
    rw [afterUpdates_concat]
    exact ih.trans (updated _ update)

end KeepsIds

theorem listsOnce_afterUpdates {updates : List Update}
    (h : ∀ record, Update.add record ∈ updates → record.ListsOnce) :
    ∀ idx record, (empty.afterUpdates updates).get? idx = some record → record.ListsOnce := by
  induction updates using List.reverseRecOn with
  | nil => simp [empty, get?]
  | append_singleton updates update ih =>
    have hbefore := ih fun record hmem => h record (List.mem_append_left _ hmem)
    intro idx record hget
    rw [afterUpdates_concat] at hget
    cases update with
    | add added =>
      rw [updated, get?_add] at hget
      split at hget
      · rw [← Option.some.inj hget]
        exact h added (List.mem_append_right _ List.mem_cons_self)
      · exact hbefore idx record hget
    | addAlias place absMid =>
      rw [updated, get?_addAlias] at hget
      split at hget
      · obtain ⟨old, hold, rfl⟩ := Option.map_eq_some_iff.mp hget
        exact (hbefore idx old hold).reachedUnder absMid
      · exact hbefore idx record hget

/-- **Any updates.**  After any updates of the empty graph, an absolute id leads to a module that
answers to it, and it leads somewhere if any module does; an identifier leads to the last module
that has it.  An alias is refused exactly if there is no module at the place or the module answers
to the id already, and then nothing is changed.  Where an absolute id leads it goes on to lead, and
a module keeps its own id.  If no module that was added listed an id twice, none does. -/
theorem lookups_afterUpdates (updates : List Update) :
    let graph := empty.afterUpdates updates
    (∀ absMid idx, graph.byAbsMid? absMid = some idx →
        ∃ record, graph.get? idx = some record ∧ record.answersTo absMid = true) ∧
      (∀ absMid idx record, graph.get? idx = some record → record.answersTo absMid = true →
        (graph.byAbsMid? absMid).isSome) ∧
      (∀ request idx, graph.byIdentifier? request = some idx ↔
        IsGreatest {i | graph.identifierAt? i = some request} idx) ∧
      (∀ idx absMid,
        ((graph.addAlias idx absMid).1 = false ↔
          graph.get? idx = none ∨
            ∃ record, graph.get? idx = some record ∧ record.answersTo absMid = true) ∧
        ((graph.addAlias idx absMid).1 = false → (graph.addAlias idx absMid).2 = graph)) ∧
      (∀ later absMid idx, graph.byAbsMid? absMid = some idx →
        (graph.afterUpdates later).byAbsMid? absMid = some idx) ∧
      (∀ later idx record absMid, graph.get? idx = some record → record.absMid = some absMid →
        ∃ record', (graph.afterUpdates later).get? idx = some record' ∧
          record'.absMid = some absMid) ∧
      ((∀ record, Update.add record ∈ updates → record.ListsOnce) →
        ∀ idx record, graph.get? idx = some record → record.ListsOnce) := by
  intro graph
  have hindexed : graph.Indexed := indexed_empty.afterUpdates updates
  refine ⟨hindexed.answers, hindexed.known, hindexed.last,
    fun idx absMid => ⟨fst_addAlias_eq_false_iff, snd_addAlias_of_false⟩, ?_, ?_, ?_⟩
  · intro later absMid idx
    exact (KeepsIds.afterUpdates graph later).leads absMid idx
  · intro later idx record absMid hget hmid
    have hown : graph.ownId? idx = some absMid := Option.bind_eq_some_iff.mpr ⟨record, hget, hmid⟩
    exact Option.bind_eq_some_iff.mp ((KeepsIds.afterUpdates graph later).own idx absMid hown)
  · exact listsOnce_afterUpdates

/-- Two modules with one identifier, of which the second is reached under the id of the first, and
then both under another. -/
def contested : List Update :=
  [.add { request := "/a.js", absMid := some "p/a" }, .add { request := "/a.js" },
    .addAlias 1 "p/a", .addAlias 1 "p/b", .addAlias 0 "p/b"]

/-- The first module keeps its id, the second has the identifier and the other id; the first answers
to that, too, so it is refused as one more alias, whatever else is done before. -/
theorem lookups_afterUpdates_contested :
    let graph := empty.afterUpdates contested
    (∀ later, (graph.afterUpdates later).byAbsMid? "p/a" = some 0 ∧
        (graph.afterUpdates later).byAbsMid? "p/b" = some 1) ∧
      IsGreatest {i | graph.identifierAt? i = some "/a.js"} 1 ∧
      (graph.addAlias 0 "p/b").2 = graph ∧ (graph.addAlias 2 "p/c").2 = graph ∧
      ∀ idx record, graph.get? idx = some record → record.ListsOnce := by
  intro graph
  obtain ⟨-, -, hidentifier, halias, hleads, -, hlists⟩ := lookups_afterUpdates contested
  have hfirst : graph.byAbsMid? "p/a" = some 0 := by decide
  have hsecond : graph.byAbsMid? "p/b" = some 1 := by decide
  have hlast : graph.byIdentifier? "/a.js" = some 1 := by decide
  have hrefused : (graph.addAlias 0 "p/b").1 = false := by decide
  have hunknown : (graph.addAlias 2 "p/c").1 = false := by decide
  refine ⟨fun later => ⟨hleads later "p/a" 0 hfirst, hleads later "p/b" 1 hsecond⟩,
    (hidentifier "/a.js" 1).mp hlast, (halias 0 "p/b").2 hrefused, (halias 2 "p/c").2 hunknown,
    hlists ?_⟩
  -- neither of the modules that were added has an alias
  intro record hmem
  refine (ModuleRecord.wellNamed_of_no_aliases ?_).listsOnce
  simp only [contested, List.mem_cons, Update.add.injEq, reduceCtorEq, List.not_mem_nil, or_false]
    at hmem
  rcases hmem with rfl | rfl <;> rfl

end ModuleGraph
end AmdBundle
