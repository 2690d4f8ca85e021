import AmdBundle.Graph.Basic

/-!
# AmdBundle.Graph.Order — modules after those they depend on

Modules are placed one after the other.  A module waits for as many placements as it has entries in
its list of dependencies; when the last of them has been made it joins the end of the queue.
Modules that never get there follow in the order of their places.
-/

namespace AmdBundle
namespace ModuleGraph

/-- The places that a module depends on; a place where there is no module counts for nothing. -/
def dependenciesOf (graph : ModuleGraph) (record : ModuleRecord) : List Nat :=
  let n := graph.size
  record.dependencies.filter fun idx => idx < n

/-- The modules that depend on a place, in order, each as often as it does. -/
def dependentsOf (graph : ModuleGraph) (idx : Nat) : List Nat :=
  graph.modules.zipIdx.flatMap fun entry =>
    (entry.1.dependencies.filter (· == idx)).map fun _ => entry.2

structure Ordering where
  /-- For each module how many placements it still waits for. -/
  waiting : List Nat
  /-- The modules to be placed next. -/
  queue : List Nat
  /-- The modules placed. -/
  placed : List Nat
  deriving DecidableEq, Repr

namespace Ordering

/-- Counts one placement for a module. -/
def release (o : Ordering) (idx : Nat) : Ordering :=
  let left := (o.waiting[idx]?.getD 0) - 1
  { o with
    waiting := o.waiting.set idx left
    queue := if left = 0 then o.queue ++ [idx] else o.queue }

/-- Places the modules in the queue, at most `fuel` of them. -/
def run (graph : ModuleGraph) : Nat → Ordering → Ordering
  | 0, o => o
  | fuel + 1, o =>
    match o.queue with
    | [] => o
    | idx :: queue =>
      let next := { o with queue, placed := o.placed ++ [idx] }
      run graph fuel ((graph.dependentsOf idx).foldl release next)

end Ordering

/-- The state before the first placement: modules without dependencies can be placed. -/
def startOrdering (graph : ModuleGraph) : Ordering :=
  let waiting := graph.modules.map fun record => (graph.dependenciesOf record).length
  { waiting
    queue := (List.range graph.size).filter fun idx => waiting[idx]? == some 0
    placed := [] }

/-- All modules, those that wait for nothing that cannot be placed after what they depend on. -/
def toposort (graph : ModuleGraph) : List Nat :=
  let placed := (Ordering.run graph graph.size graph.startOrdering).placed
  placed ++ (List.range graph.size).filter fun idx => !placed.contains idx

end ModuleGraph
end AmdBundle
