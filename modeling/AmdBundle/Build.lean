import AmdBundle.Factory
import AmdBundle.Graph.Order
import AmdBundle.Walk.Traverse

/-!
# AmdBundle.Build — the modules reachable from an entry

A build creates the entry, then takes modules from a queue: it loads the program of a module, walks
it, creates the modules that the program needs, and puts those not met before at the end of the
queue.  It is over when the queue is empty, or at the first error.

`Build.step` handles one module.  `Build.run` takes steps as long as there is fuel; whether some
amount of fuel is enough is a property of the modules.
-/

namespace AmdBundle

structure Build (σ : Type) where
  /-- The directory that the entry is taken against. -/
  cwd : String
  hooks : HookTable
  factory : Factory σ
  /-- The program of a module. -/
  source : ModuleRecord → Except Error (List Node)

/-- How far a build has come. -/
structure BuildState (σ : Type) where
  work : Workspace σ
  /-- The modules to be handled. -/
  queue : List Nat
  /-- The modules that have been in the queue. -/
  seen : List Nat
  warnings : List String

structure BuildOutput where
  graph : ModuleGraph
  entry : Nat
  warnings : List String
  deriving DecidableEq, Repr

namespace BuildOutput

/-- The modules in order, those that a module depends on before it. -/
def modulesInOrder (output : BuildOutput) : List ModuleRecord :=
  output.graph.toposort.filterMap output.graph.get?

end BuildOutput

namespace Build

variable {σ : Type}

/-- What a module is to be created for, by the dependency that needs it. -/
def pendingFor : Dependency → FactoryDependency
  | .item ⟨.external ref, _, _, _⟩ => .amdItem ref.issuer
  | _ => .commonJs

/-- The request of a dependency in a directory, if it has one. -/
def requestData? (context : String) (dependency : Dependency) : Option ResolveData :=
  dependency.request?.map fun request => .new context request [pendingFor dependency]

def insertNew (xs : List Nat) (x : Nat) : List Nat :=
  if xs.contains x then xs else xs ++ [x]

/-- Creates the modules for requests one after the other; gives their places, each once. -/
def createAll (build : Build σ) : List ResolveData → List Nat → CreateM σ (List Nat)
  | [], places => pure places
  | data :: rest, places => do
    let idx ← build.factory.create data
    createAll build rest (insertNew places idx)

/-- What the walk over the program of a module records. -/
def walkModule (build : Build σ) (record : ModuleRecord) : Except Error FileOutput :=
  match build.source record with
  | .error error => .error error
  | .ok nodes =>
    let start : FileState := { identity := ⟨record.absMid, record.request⟩ }
    match start.walk build.hooks nodes with
    | (.error error, _) => .error (.plugin error)
    | (.ok (), state) => .ok state.output

/-- The module with what was found in its file. -/
def finished (output : FileOutput) (places : List Nat) (record : ModuleRecord) : ModuleRecord :=
  { record with isAmd := output.isAmd, dependencies := places }

/-- Handles a module whose record is given. -/
def handle (build : Build σ) (idx : Nat) (record : ModuleRecord) (state : BuildState σ) :
    Except Error (BuildState σ) :=
  match build.walkModule record with
  | .error error => .error error
  | .ok output =>
    let requests := output.dependencies.filterMap (requestData? record.context)
    match (build.createAll requests []).run.run state.work with
    | (.error error, _) => .error error
    | (.ok places, work) =>
      let fresh := places.filter fun place => !state.seen.contains place
      .ok {
        work := { work with graph := work.graph.modify idx (finished output places) }
        queue := state.queue ++ fresh
        seen := state.seen ++ fresh
        warnings := state.warnings ++ output.warnings }

/-- Handles the first module of the queue; `none` if the queue is empty. -/
def step (build : Build σ) (state : BuildState σ) : Except Error (Option (BuildState σ)) :=
  match state.queue with
  | [] => .ok none
  | idx :: queue =>
    let state := { state with queue }
    match state.work.graph.get? idx with
    | none => .ok (some state)
    | some record =>
      match build.handle idx record state with
      | .ok state => .ok (some state)
      | .error error => .error error

inductive Outcome (σ : Type) where
  | done (state : BuildState σ)
  | failed (error : Error)
  /-- The fuel was used up. -/
  | unfinished (state : BuildState σ)

/-- Takes steps, at most `fuel` of them, until the queue is empty. -/
def run (build : Build σ) : Nat → BuildState σ → Outcome σ
  | fuel, state =>
    match build.step state with
    | .error error => .failed error
    | .ok none => .done state
    | .ok (some next) =>
      match fuel with
      | 0 => .unfinished state
      | fuel + 1 => run build fuel next

/-- Creates the entry: its place, and the state from which steps are taken. -/
def start (build : Build σ) (entry : String) (resolver : σ) : Except Error (Nat × BuildState σ) :=
  match build.factory.createFrom (.new build.cwd entry [.entry]) ⟨{}, resolver⟩ with
  | (.error error, _) => .error error
  | (.ok idx, work) => .ok (idx, { work, queue := [idx], seen := [idx], warnings := [] })

/-- Builds what is reachable from an entry; `none` if the fuel was used up. -/
def build? (build : Build σ) (fuel : Nat) (entry : String) (resolver : σ) :
    Option (Except Error BuildOutput) :=
  match build.start entry resolver with
  | .error error => some (.error error)
  | .ok (idx, state) =>
    match build.run fuel state with
    | .done state => some (.ok ⟨state.work.graph, idx, state.warnings⟩)
    | .failed error => some (.error error)
    | .unfinished _ => none

end Build
end AmdBundle
