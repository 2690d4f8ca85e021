import AmdBundle.Proofs.Factory.Creation
import AmdBundle.Proofs.Graph.Tables

/-!
# AmdBundle.Proofs.Factory.Places — the places that creations give

Whatever plugins and resolver a factory has, a creation that succeeds gives the place of a module of
the graph, or the place behind the last one and adds that module (`Created.place`).  The tables go
on to lead to modules (`Created.inRange`), and of the modules that were there nothing changes but
their ids (`Created.unnamed_get?`).
-/

namespace AmdBundle
namespace Factory

variable {σ : Type} {factory : Factory σ} {data : ResolveData} {graph graph' : ModuleGraph}
  {idx : Nat}

@[simp] theorem size_reached (graph : ModuleGraph) (idx : Nat) (absMid : Option String) :
    (Factory.reached graph idx absMid).size = graph.size := by
  cases absMid with
  | none => rfl
  | some absMid => exact ModuleGraph.size_addAlias

theorem inRange_reached (h : graph.InRange) (idx : Nat) (absMid : Option String) :
    (Factory.reached graph idx absMid).InRange := by
  cases absMid with
  | none => exact h
  | some absMid => exact h.addAlias idx absMid

theorem unnamed_get?_reached (absMid : Option String) (i : Nat) :
    ((Factory.reached graph idx absMid).get? i).map ModuleRecord.unnamed =
      (graph.get? i).map ModuleRecord.unnamed := by
  cases absMid with
  | none => rfl
  | some absMid => exact ModuleGraph.map_get?_addAlias ModuleRecord.unnamed_withAbsMid absMid i

namespace Created

theorem inRange (h : factory.Created data graph idx graph') (hgraph : graph.InRange) :
    graph'.InRange := by
  cases h with
  | known => exact hgraph
  | reached => exact inRange_reached hgraph idx _
  | made => exact hgraph.add _

theorem place (h : factory.Created data graph idx graph') (hgraph : graph.InRange) :
    idx < graph.size ∧ graph'.size = graph.size ∨
      idx = graph.size ∧ graph'.size = graph.size + 1 := by
  cases h with
  | known _ hfound => exact .inl ⟨hgraph.absMid _ _ hfound, rfl⟩
  | reached _ _ hfound => exact .inl ⟨hgraph.identifier _ _ hfound, size_reached graph idx _⟩
  | made => exact .inr ⟨rfl, ModuleGraph.size_add graph _⟩

theorem unnamed_get? (h : factory.Created data graph idx graph') {i : Nat} (hi : i < graph.size) :
    (graph'.get? i).map ModuleRecord.unnamed = (graph.get? i).map ModuleRecord.unnamed := by
  cases h with
  | known => rfl
  | reached => exact unnamed_get?_reached _ i
  | made => rw [ModuleGraph.get?_add, if_neg (Nat.ne_of_lt hi)]

end Created

end Factory
end AmdBundle
