import AmdBundle.Dependency
import AmdBundle.Error

/-!
# AmdBundle.Walk.State — the state of a file under a walk

What a walk over a file has recorded, and the two marks that it keeps only while it is inside
something: whether it is inside a `try` block of the present function, and which calls are being
handled.  A step that fails keeps what it recorded before, and a mark is put back all the same.
-/

namespace AmdBundle

structure FileState where
  /-- The module that the file holds. -/
  identity : ModuleIdentity := {}
  /-- Whether a `define` call was seen. -/
  isAmd : Bool := false
  /-- Whether the loader's script was recorded as a dependency. -/
  loaderInjected : Bool := false
  locals : LocalModules := {}
  dependencies : List Dependency := []
  warnings : List String := []
  /-- The calls being handled, by id, the last one first. -/
  processing : List UInt32 := []
  /-- Whether the walk is inside a `try` block of the present function. -/
  inTry : Bool := false
  deriving DecidableEq, Repr, Inhabited

namespace FileState

def record (state : FileState) (dependency : Dependency) : FileState :=
  { state with dependencies := state.dependencies ++ [dependency] }

def warn (state : FileState) (message : String) : FileState :=
  { state with warnings := state.warnings ++ [message] }

/-- Marks a call as being handled; `none` if it is so already. -/
def enter? (state : FileState) (id : UInt32) : Option FileState :=
  if state.processing.contains id then none
  else some { state with processing := id :: state.processing }

/-- Takes the mark off a call. -/
def leave (state : FileState) (id : UInt32) : FileState :=
  { state with processing := state.processing.erase id }

end FileState

abbrev WalkM : Type → Type := ExceptT PluginError (StateM FileState)

namespace WalkM

/-- Runs a step from a state: how it ended, and the state it left. -/
def runFrom {α : Type} (step : WalkM α) (state : FileState) : Except PluginError α × FileState :=
  step.run.run state

/-- The step that does what the function says. -/
def ofFun {α : Type} (f : FileState → Except PluginError α × FileState) : WalkM α :=
  ExceptT.mk f

def update (f : FileState → FileState) : WalkM Unit :=
  ofFun fun state => (.ok (), f state)

def refuse {α : Type} (error : PluginError) : WalkM α :=
  ofFun fun state => (.error error, state)

def record (dependency : Dependency) : WalkM Unit := update (·.record dependency)

def warn (message : String) : WalkM Unit := update (·.warn message)

/-- Runs a step with the `try` mark set to a value, and puts it back afterwards. -/
def withTry {α : Type} (value : Bool) (step : WalkM α) : WalkM α :=
  ofFun fun state =>
    let (result, after) := step.runFrom { state with inTry := value }
    (result, { after with inTry := state.inTry })

/-- Runs a step inside a `try` block. -/
def inTryBlock {α : Type} (step : WalkM α) : WalkM α := withTry true step

/-- Runs a step inside a function; a `try` block around the function does not reach into it. -/
def inFunction {α : Type} (step : WalkM α) : WalkM α := withTry false step

end WalkM
end AmdBundle
