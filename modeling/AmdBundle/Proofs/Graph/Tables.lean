import AmdBundle.Proofs.Graph.Identifiers

/-!
# AmdBundle.Proofs.Graph.Tables — tables that lead to modules

Whatever modules and aliases a graph has got, its tables lead nowhere but to its modules
(`InRange`).  Unlike `Consistent` this asks nothing of the records: it holds of the graphs of all
factories, and of whatever else is `Built` by adding modules and aliases and by changing records.
-/

namespace AmdBundle
namespace ModuleGraph

/-- The tables lead to places where there is a module. -/
structure InRange (graph : ModuleGraph) : Prop where
  identifier : ∀ request idx, graph.byIdentifier? request = some idx → idx < graph.size
  absMid : ∀ absMid idx, graph.byAbsMid? absMid = some idx → idx < graph.size

theorem inRange_empty : InRange {} := by
  constructor <;> simp [byIdentifier?, byAbsMid?]

namespace InRange

variable {graph : ModuleGraph} (h : graph.InRange)
include h

theorem add (record : ModuleRecord) : (graph.add record).2.InRange := by
  constructor
  · intro request idx hidx
    rw [byIdentifier?_add] at hidx
    rw [size_add]
    split at hidx
    · exact Nat.lt_succ_of_le (Nat.le_of_eq (Option.some.inj hidx).symm)
    · exact Nat.lt_succ_of_lt (h.identifier request idx hidx)
  · intro absMid idx hidx
    rw [byAbsMid?_add] at hidx
    rw [size_add]
    rcases Option.or_eq_some_iff.mp hidx with hold | ⟨-, hnew⟩
    · exact Nat.lt_succ_of_lt (h.absMid absMid idx hold)
    · split at hnew
      · exact Nat.lt_succ_of_le (Nat.le_of_eq (Option.some.inj hnew).symm)
      · simp at hnew

theorem addAlias (idx : Nat) (absMid : String) : (graph.addAlias idx absMid).2.InRange := by
  constructor
  · intro request i hi
    rw [byIdentifier?_addAlias] at hi
    rw [size_addAlias]
    exact h.identifier request i hi
  · intro id i hi
    rw [byAbsMid?_addAlias] at hi
    rw [size_addAlias]
    rcases Option.or_eq_some_iff.mp hi with hold | ⟨-, hnew⟩
    · exact h.absMid id i hold
    · split at hnew
      · rename_i hadded
        obtain ⟨record, hget, -⟩ := fst_addAlias_eq_true_iff.mp hadded.1
        exact Option.some.inj hnew ▸ lt_size_of_get? hget
      · simp at hnew

theorem modify (idx : Nat) (change : ModuleRecord → ModuleRecord) :
    (graph.modify idx change).InRange := by
  constructor
  · intro request i hi
    rw [byIdentifier?_modify] at hi
    rw [size_modify]
    exact h.identifier request i hi
  · intro absMid i hi
    rw [byAbsMid?_modify] at hi
    rw [size_modify]
    exact h.absMid absMid i hi

end InRange

/-- What a graph can become by its own operations. -/
inductive Built : ModuleGraph → Prop
  | empty : Built {}
  | add {graph : ModuleGraph} (h : Built graph) (record : ModuleRecord) : Built (graph.add record).2
  | addAlias {graph : ModuleGraph} (h : Built graph) (idx : Nat) (absMid : String) :
      Built (graph.addAlias idx absMid).2
  | modify {graph : ModuleGraph} (h : Built graph) (idx : Nat)
      (change : ModuleRecord → ModuleRecord) : Built (graph.modify idx change)

theorem Built.inRange {graph : ModuleGraph} (h : graph.Built) : graph.InRange := by
  induction h with
  | empty => exact inRange_empty
  | add _ record ih => exact ih.add record
  | addAlias _ idx absMid ih => exact ih.addAlias idx absMid
  | modify _ idx change ih => exact ih.modify idx change

end ModuleGraph
end AmdBundle
