import AmdBundle.Proofs.Graph.Consistency
import Mathlib.Data.Set.Defs

/-!
# AmdBundle.Proofs.Graph.Identifiers — identifiers by place

The identifier of a module stays at its place, whatever is done to the graph: aliases and changes to
records leave all of them alone, and a new module adds its own (`Extends`).
-/

namespace AmdBundle

namespace ModuleRecord

/-- The module with the id among its ids, if it does not answer to it yet. -/
def reachedUnder (record : ModuleRecord) (absMid : String) : ModuleRecord :=
  if record.answersTo absMid then record else record.withAbsMid absMid

def unnamed (record : ModuleRecord) : ModuleRecord :=
  { record with absMid := none, absMidAliases := [] }

@[simp] theorem unnamed_withAbsMid (record : ModuleRecord) (absMid : String) :
    (record.withAbsMid absMid).unnamed = record.unnamed := by
  unfold withAbsMid
  split <;> rfl

@[simp] theorem unnamed_reachedUnder (record : ModuleRecord) (absMid : String) :
    (record.reachedUnder absMid).unnamed = record.unnamed := by
  unfold reachedUnder
  split
  · rfl
  · exact unnamed_withAbsMid record absMid

theorem answersTo_reachedUnder {record : ModuleRecord} {absMid id : String} :
    (record.reachedUnder absMid).answersTo id = true ↔
      record.answersTo id = true ∨ absMid = id := by
  unfold reachedUnder
  split
  · rename_i hans
    constructor
    · exact .inl
    · rintro (hold | rfl)
      · exact hold
      · exact hans
  · rw [answersTo_iff, answersTo_iff, mem_absMids_withAbsMid, eq_comm (a := absMid)]

theorem request_eq_of_unnamed_eq {a b : ModuleRecord} (h : a.unnamed = b.unnamed) :
    a.request = b.request := by
  show a.unnamed.request = b.unnamed.request
  rw [h]

theorem dependencies_eq_of_unnamed_eq {a b : ModuleRecord} (h : a.unnamed = b.unnamed) :
    a.dependencies = b.dependencies := by
  show a.unnamed.dependencies = b.unnamed.dependencies
  rw [h]

end ModuleRecord

namespace ModuleGraph

variable {graph : ModuleGraph} {idx : Nat}

def identifierAt? (graph : ModuleGraph) (idx : Nat) : Option String :=
  (graph.get? idx).map ModuleRecord.request

theorem lt_size_of_get? {record : ModuleRecord} (h : graph.get? idx = some record) :
    idx < graph.size :=
  (List.getElem?_eq_some_iff.mp h).1

theorem lt_size_of_identifierAt? {request : String} (h : graph.identifierAt? idx = some request) :
    idx < graph.size := by
  obtain ⟨record, hrecord, -⟩ := Option.map_eq_some_iff.mp h
  exact lt_size_of_get? hrecord

theorem exists_get?_of_lt_size (h : idx < graph.size) : ∃ record, graph.get? idx = some record :=
  ⟨graph.modules[idx], List.getElem?_eq_getElem h⟩

theorem identifierAt?_add (record : ModuleRecord) (i : Nat) :
    (graph.add record).2.identifierAt? i =
      if i = graph.size then some record.request else graph.identifierAt? i := by
  rw [identifierAt?, get?_add]
  split <;> rfl

/-- An alias touches one module, and no more of it than its ids. -/
theorem get?_addAlias (absMid : String) (i : Nat) :
    (graph.addAlias idx absMid).2.get? i =
      if idx = i then (graph.get? i).map (·.reachedUnder absMid) else graph.get? i := by
  cases hget : graph.get? idx with
  | none =>
    rw [addAlias_of_get?_eq_none hget]
    split
    · rename_i hi
      rw [← hi, hget, Option.map_none]
    · rfl
  | some record =>
    by_cases hans : record.answersTo absMid = true
    · rw [addAlias_of_answersTo hget hans]
      split
      · rename_i hi
        rw [← hi, hget, Option.map_some, ModuleRecord.reachedUnder, if_pos hans]
      · rfl
    · rw [get?_addAlias_of_not_answersTo hget hans]
      split
      · rename_i hi
        rw [← hi, hget, Option.map_some, ModuleRecord.reachedUnder, if_neg hans]
      · rfl

theorem map_get?_addAlias {α : Type} {part : ModuleRecord → α}
    (hpart : ∀ record absMid, part (record.withAbsMid absMid) = part record) (absMid : String)
    (i : Nat) : ((graph.addAlias idx absMid).2.get? i).map part = (graph.get? i).map part := by
  rw [get?_addAlias]
  split
  · rw [Option.map_map]
    refine congrArg (Option.map · _) (funext fun record => ?_)
    show part (record.reachedUnder absMid) = part record
    unfold ModuleRecord.reachedUnder
    split
    · rfl
    · exact hpart record absMid
  · rfl

@[simp] theorem identifierAt?_addAlias (absMid : String) (i : Nat) :
    (graph.addAlias idx absMid).2.identifierAt? i = graph.identifierAt? i :=
  map_get?_addAlias ModuleRecord.request_withAbsMid absMid i

theorem identifierAt?_modify {change : ModuleRecord → ModuleRecord}
    (hchange : ∀ record, (change record).request = record.request) (i : Nat) :
    (graph.modify idx change).identifierAt? i = graph.identifierAt? i := by
  rw [identifierAt?, identifierAt?, get?_modify]
  split
  · rw [Option.map_map]
    exact congrArg (Option.map · _) (funext hchange)
  · rfl

theorem Consistent.idx_eq_of_identifierAt? (h : graph.Consistent) {i j : Nat} {request : String}
    (hi : graph.identifierAt? i = some request) (hj : graph.identifierAt? j = some request) :
    i = j := by
  obtain ⟨a, ha, hra⟩ := Option.map_eq_some_iff.mp hi
  obtain ⟨b, hb, hrb⟩ := Option.map_eq_some_iff.mp hj
  exact h.idx_eq_of_request ha hb (hra.trans hrb.symm)

theorem exists_identifierAt?_iff {request : String} :
    (∃ i, graph.identifierAt? i = some request) ↔
      request ∈ graph.modules.map ModuleRecord.request := by
  rw [List.mem_iff_getElem?]
  simp only [identifierAt?, get?, List.getElem?_map]

theorem Consistent.modify (h : graph.Consistent) {change : ModuleRecord → ModuleRecord}
    (hrequest : ∀ record, (change record).request = record.request)
    (hmid : ∀ record, (change record).absMid = record.absMid)
    (haliases : ∀ record, (change record).absMidAliases = record.absMidAliases) :
    (graph.modify idx change).Consistent := by
  have hanswers : ∀ record absMid, (change record).answersTo absMid = record.answersTo absMid := by
    intro record absMid
    rw [ModuleRecord.answersTo, ModuleRecord.answersTo, hmid, haliases]
  -- what the change leaves alone holds of a module at a place exactly if it held before
  have hexists : ∀ (P : ModuleRecord → Prop) (i : Nat), (∀ record, P (change record) ↔ P record) →
      ((∃ record, (graph.modify idx change).get? i = some record ∧ P record) ↔
        ∃ record, graph.get? i = some record ∧ P record) := by
    intro P i hP
    rw [get?_modify]
    split
    · cases graph.get? i with
      | none => simp
      | some record => simp [hP]
    · rfl
  refine ⟨fun request i => ?_, fun absMid i => ?_, fun i record hrecord => ?_⟩
  · rw [byIdentifier?_modify, h.identifier, hexists _ i fun record => by rw [hrequest]]
  · rw [byAbsMid?_modify, h.absMid, hexists _ i fun record => by rw [hanswers]]
  · rw [get?_modify] at hrecord
    split at hrecord
    · obtain ⟨old, hold, rfl⟩ := Option.map_eq_some_iff.mp hrecord
      have hnamed := h.wellNamed i old hold
      refine ⟨?_, ?_, ?_⟩
      · rw [haliases]
        exact hnamed.nodup
      · rw [hmid, haliases]
        exact hnamed.own_not_alias
      · rw [hmid, haliases]
        exact hnamed.own_first
    · exact h.wellNamed i record hrecord

/-- The second graph has the identifiers of the first at their places, and others only from a set.
-/
structure Extends (identifiers : Set String) (graph graph' : ModuleGraph) : Prop where
  kept : ∀ i request, graph.identifierAt? i = some request → graph'.identifierAt? i = some request
  added : ∀ i request, graph'.identifierAt? i = some request →
    graph.identifierAt? i = some request ∨ request ∈ identifiers

namespace Extends

variable {identifiers : Set String} {graph' graph'' : ModuleGraph}

theorem of_eq (h : ∀ i, graph'.identifierAt? i = graph.identifierAt? i) :
    Extends identifiers graph graph' :=
  ⟨fun i _ hi => (h i).trans hi, fun i _ hi => .inl ((h i).symm.trans hi)⟩

theorem trans (h : Extends identifiers graph graph') (h' : Extends identifiers graph' graph'') :
    Extends identifiers graph graph'' := by
  refine ⟨fun i _ hi => h'.kept i _ (h.kept i _ hi), fun i request hi => ?_⟩
  rcases h'.added i request hi with hold | hnew
  · exact h.added i request hold
  · exact .inr hnew

theorem add (record : ModuleRecord) (h : record.request ∈ identifiers) :
    Extends identifiers graph (graph.add record).2 := by
  refine ⟨fun i request hi => ?_, fun i request hi => ?_⟩
  · rw [identifierAt?_add, if_neg (Nat.ne_of_lt (lt_size_of_identifierAt? hi)), hi]
  · rw [identifierAt?_add] at hi
    split at hi
    · exact .inr (Option.some.inj hi ▸ h)
    · exact .inl hi

theorem size_le (h : Extends identifiers graph graph') : graph.size ≤ graph'.size := by
  rcases Nat.eq_zero_or_pos graph.size with hzero | hpos
  · rw [hzero]
    exact Nat.zero_le _
  · obtain ⟨record, hrecord⟩ := exists_get?_of_lt_size (Nat.sub_lt hpos Nat.one_pos)
    have hlast : graph.identifierAt? (graph.size - 1) = some record.request := by
      rw [identifierAt?, hrecord, Option.map_some]
    have hlt := lt_size_of_identifierAt? (h.kept _ _ hlast)
    omega

theorem identifierAt?_eq (h : Extends identifiers graph graph') (hlt : idx < graph.size) :
    graph'.identifierAt? idx = graph.identifierAt? idx := by
  obtain ⟨record, hrecord⟩ := exists_get?_of_lt_size hlt
  have hold : graph.identifierAt? idx = some record.request := by
    rw [identifierAt?, hrecord, Option.map_some]
  rw [hold, h.kept idx _ hold]

end Extends

end ModuleGraph

end AmdBundle
