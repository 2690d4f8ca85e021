import AmdBundle.Walk.Hooks

/-!
# AmdBundle.Walk.Traverse — the walk over a file

Statements and expressions are walked from left to right.  A call is offered to the hooks; if none
claims it, its arguments are walked.  The block of a `try` statement is walked inside the block, its
handler is not; the body of a function is walked inside the function.
-/

namespace AmdBundle
namespace HookTable

mutual

def walkNodes (table : HookTable) (nodes : List Node) : WalkM Unit :=
  match nodes with
  | [] => pure ()
  | .expr e :: rest => do
    walkExpr table e
    walkNodes table rest
  | .tryCatch block handler :: rest => do
    WalkM.inTryBlock (walkNodes table block)
    walkNodes table handler
    walkNodes table rest
termination_by sizeOf nodes

def walkExpr (table : HookTable) (e : Expr) : WalkM Unit :=
  match e with
  | .call id span callee args => do
    let walk (e : Expr) (_ : sizeOf e < sizeOf args) : WalkM Unit := walkExpr table e
    match ← table.offer ⟨id, span, callee, args⟩ walk with
    | .claim => pure ()
    | .pass => walkExprs table args
  | .function _ _ body => WalkM.inFunction (walkNodes table body)
  | .array _ elements => walkExprs table elements
  | _ => pure ()
termination_by sizeOf e
decreasing_by
  all_goals simp_wf
  all_goals omega

def walkExprs (table : HookTable) (es : List Expr) : WalkM Unit :=
  match es with
  | [] => pure ()
  | e :: rest => do
    walkExpr table e
    walkExprs table rest
termination_by sizeOf es

end

end HookTable

structure FileOutput where
  dependencies : List Dependency
  isAmd : Bool
  warnings : List String
  deriving DecidableEq, Repr

namespace FileState

def output (state : FileState) : FileOutput :=
  ⟨state.dependencies, state.isAmd, state.warnings⟩

/-- Walks a program from a state: the error that ended the walk, if one did, and the state it left.
-/
def walk (table : HookTable) (nodes : List Node) (state : FileState) :
    Except PluginError Unit × FileState :=
  (table.walkNodes nodes).runFrom state

end FileState
end AmdBundle
