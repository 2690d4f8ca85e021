import AmdBundle.Walk.Traverse

/-!
# AmdBundle.Proofs.Walk.Wire — walks that stop at a call

Whether the hooks are offered a call cannot be told from what a walk records.  So the way of
offering calls is made a parameter of the walk (`walkNodesBy`, which is the walk itself for
`HookTable.offer`: `walkNodes_eq`), and a wire is drawn across some calls: when the walk is about to
offer one of them, it fails with an error of the wire's own.  The walk comes to a call if it fails
there (`HookTable.ComesTo`).
-/

namespace AmdBundle

/-- A way of offering calls: what is done with a call before its arguments may be walked. -/
abbrev Offer : Type := (call : Call) → Walker call → WalkM Verdict

mutual

/-- Walks statements, with a way of offering calls. -/
def walkNodesBy (offer : Offer) (nodes : List Node) : WalkM Unit :=
  match nodes with
  | [] => pure ()
  | .expr e :: rest => do
    walkExprBy offer e
    walkNodesBy offer rest
  | .tryCatch block handler :: rest => do
    WalkM.inTryBlock (walkNodesBy offer block)
    walkNodesBy offer handler
    walkNodesBy offer rest
termination_by sizeOf nodes

def walkExprBy (offer : Offer) (e : Expr) : WalkM Unit :=
  match e with
  | .call id span callee args => do
    let walk (e : Expr) (_ : sizeOf e < sizeOf args) : WalkM Unit := walkExprBy offer e
    match ← offer ⟨id, span, callee, args⟩ walk with
    | .claim => pure ()
    | .pass => walkExprsBy offer args
  | .function _ _ body => WalkM.inFunction (walkNodesBy offer body)
  | .array _ elements => walkExprsBy offer elements
  | _ => pure ()
termination_by sizeOf e
decreasing_by
  all_goals simp_wf
  all_goals omega

def walkExprsBy (offer : Offer) (es : List Expr) : WalkM Unit :=
  match es with
  | [] => pure ()
  | e :: rest => do
    walkExprBy offer e
    walkExprsBy offer rest
termination_by sizeOf es

end

namespace HookTable

variable (table : HookTable)

mutual

theorem walkNodes_eq (nodes : List Node) :
    table.walkNodes nodes = walkNodesBy table.offer nodes := by
  match nodes with
  | [] => rw [walkNodes, walkNodesBy]
  | .expr e :: rest => rw [walkNodes, walkNodesBy, walkExpr_eq e, walkNodes_eq rest]
  | .tryCatch block onError :: rest =>
    rw [walkNodes, walkNodesBy, walkNodes_eq block, walkNodes_eq onError, walkNodes_eq rest]
termination_by sizeOf nodes

theorem walkExpr_eq (e : Expr) : table.walkExpr e = walkExprBy table.offer e := by
  match e with
  | .call id span callee args =>
    have hwalk : (fun (e : Expr) (_ : sizeOf e < sizeOf args) => table.walkExpr e) =
        fun e _ => walkExprBy table.offer e := by
      funext e h
      exact walkExpr_eq e
    rewrite [walkExpr, walkExprBy, hwalk, walkExprs_eq args]
    refine bind_congr fun verdict => ?_
    cases verdict <;> rfl
  | .function span params body => rw [walkExpr, walkExprBy, walkNodes_eq body]
  | .array span elements => rw [walkExpr, walkExprBy, walkExprs_eq elements]
  | .str .. | .object .. | .ident .. | .other .. =>
    rw [walkExpr, walkExprBy]
    all_goals simp
termination_by sizeOf e

theorem walkExprs_eq (es : List Expr) : table.walkExprs es = walkExprsBy table.offer es := by
  match es with
  | [] => rw [walkExprs, walkExprsBy]
  | e :: rest => rw [walkExprs, walkExprsBy, walkExpr_eq e, walkExprs_eq rest]
termination_by sizeOf es

end

def wireTouched : PluginError := ⟨"wire", "offer", "touched"⟩

/-- Offers calls to the hooks, but fails at a call that has the wire across it. -/
def wired (wire : Call → Bool) : Offer := fun call walk =>
  if wire call then WalkM.refuse wireTouched else table.offer call walk

/-- A walk from the state is about to offer the hooks a call with the wire across it. -/
def ComesTo (wire : Call → Bool) (nodes : List Node) (state : FileState) : Prop :=
  ((walkNodesBy (table.wired wire) nodes).runFrom state).1 = .error wireTouched

theorem walkNodesBy_unwired (nodes : List Node) :
    walkNodesBy (table.wired fun _ => false) nodes = table.walkNodes nodes := by
  have hoffer : table.wired (fun _ => false) = table.offer := by
    funext call walk
    rw [wired, if_neg Bool.false_ne_true]
  rw [walkNodes_eq, hoffer]

end HookTable
end AmdBundle
