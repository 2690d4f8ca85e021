import AmdBundle.Proofs.Graph.Order

/-!
# AmdBundle.Proofs.Graph.CheckedOrder — an ordering that counts no module below zero

`toposort?` orders the modules of a graph with every count checked: it gives up where a placement is
counted for a module that waits for none, and where modules are left in the queue although as many
have been placed as there are.  It never does, whatever the lists of dependencies are, and gives the
order (`toposort?_eq`).

So the order is made of two parts (`toposort_parts`): the modules from which no cycle can be
reached, each behind all that it depends on, and the others in the order of their places.
-/

namespace AmdBundle
namespace ModuleGraph

namespace Ordering

def release? (o : Ordering) (idx : Nat) : Option Ordering :=
  match o.waiting[idx]? with
  | some (left + 1) =>
    some { o with
      waiting := o.waiting.set idx left
      queue := if left = 0 then o.queue ++ [idx] else o.queue }
  | _ => none

/-- Places all modules that get into the queue, if they are no more than `fuel` and all counts are
in order. -/
def run? (graph : ModuleGraph) : Nat → Ordering → Option Ordering
  | 0, o => if o.queue = [] then some o else none
  | fuel + 1, o =>
    match o.queue with
    | [] => some o
    | idx :: queue =>
      let next := { o with queue, placed := o.placed ++ [idx] }
      ((graph.dependentsOf idx).foldlM release? next).bind (run? graph fuel)

end Ordering

/-- All modules in order, if all counts on the way are. -/
def toposort? (graph : ModuleGraph) : Option (List Nat) :=
  (Ordering.run? graph graph.size graph.startOrdering).map fun o =>
    o.placed ++ (List.range graph.size).filter fun idx => !o.placed.contains idx

variable {graph : ModuleGraph} {rest : List Nat} {o : Ordering} {u fuel : Nat}

theorem release?_eq {left : Nat} (h : o.waiting[u]? = some (left + 1)) :
    o.release? u = some (o.release u) := by
  rw [Ordering.release?, h, Ordering.release, h]
  rfl

namespace Progress

/-- A module that is still to be told waits for at least one placement. -/
theorem release? (h : Progress graph (u :: rest) o) : o.release? u = some (o.release u) := by
  have hwaiting := h.waiting u (h.told u List.mem_cons_self)
  rw [List.count_cons_self, ← Nat.add_assoc] at hwaiting
  exact release?_eq hwaiting

theorem foldlM_release? (h : Progress graph rest o) :
    rest.foldlM Ordering.release? o = some (rest.foldl Ordering.release o) := by
  induction rest generalizing o with
  | nil => rfl
  | cons u rest ih =>
    rw [List.foldlM_cons, h.release?, List.foldl_cons]
    exact ih h.release

theorem run? (h : Progress graph [] o) (hfuel : graph.size ≤ o.placed.length + fuel) :
    Ordering.run? graph fuel o = some (Ordering.run graph fuel o) := by
  induction fuel generalizing o with
  | zero =>
    have hqueue := (h.run hfuel).2
    rw [Ordering.run] at hqueue
    rw [Ordering.run?, if_pos hqueue, Ordering.run]
  | succ fuel ih =>
    rw [Ordering.run?, Ordering.run]
    cases hqueue : o.queue with
    | nil => rfl
    | cons idx queue =>
      have hplace := h.place hqueue
      have hnext := hplace.foldl_release
      simp only
      rw [hplace.foldlM_release?, Option.bind_some]
      refine ih hnext ?_
      rw [placed_foldl_release, List.length_append, List.length_singleton]
      omega

end Progress

/-- No count goes below zero, and no module is left in the queue. -/
theorem toposort?_eq (graph : ModuleGraph) : graph.toposort? = some graph.toposort := by
  rw [toposort?, (Progress.startOrdering graph).run? (Nat.le_add_left _ _)]
  rfl

/-- **Two parts.**  The order of a graph comes about without a count below zero.  It lists every
module once: first those from which no cycle can be reached, each behind all that it depends on,
and then the others in the order of their places. -/
theorem toposort_parts (graph : ModuleGraph) :
    graph.toposort? = some graph.toposort ∧
      graph.toposort.Perm (List.range graph.size) ∧
      ∃ front back, graph.toposort = front ++ back ∧
        (∀ u, u ∈ front ↔ u < graph.size ∧ ¬ graph.MeetsCycle u) ∧
        (∀ before u behind, front = before ++ u :: behind →
          ∀ v, graph.DependsOn u v → v ∈ before) ∧
        (∀ u, u ∈ back ↔ u < graph.size ∧ graph.MeetsCycle u) ∧
        back.Pairwise (· < ·) := by
  have hordered := (progress_settled graph).1.ordered
  refine ⟨toposort?_eq graph, toposort_perm graph, graph.settled, graph.unsettled,
    toposort_eq graph, fun u => mem_settled_iff, ?_, fun u => ?_, pairwise_unsettled graph⟩
  · intro before u behind hsplit v hv
    exact hordered before u behind hsplit v (dependsOn_iff.mp hv)
  · rw [mem_unsettled_iff, mem_settled_iff]
    refine and_congr_right fun hu => ?_
    rw [not_and_not_right]
    exact ⟨fun h => h hu, fun h _ => h⟩

/-- A module before a loop, the loop, and one that lists the last twice and a place of no module.
-/
example : ({ modules := [{ dependencies := [1] }, { dependencies := [1] },
    { dependencies := [3, 3, 9] }, {}] } : ModuleGraph).toposort? = some [3, 2, 0, 1] := by decide

end ModuleGraph
end AmdBundle
