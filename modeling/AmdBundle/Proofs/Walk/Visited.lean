import AmdBundle.Amd.Handler
import AmdBundle.Walk.Traverse

/-!
# AmdBundle.Proofs.Walk.Visited — the calls that a walk comes to

A walk under a table with the handler does not come to every call of a program: of a call that is
claimed, a list of ids that is no array literal is warned of and not walked (`walkedArgs`).  The
calls that are left are listed by `visitedNodes`, in the order of the walk.
-/

namespace AmdBundle

open Amd

def Call.isDefine (call : Call) : Bool := call.callee == "define"

def isClaimed (callee : String) (args : List Expr) : Bool :=
  if callee = "define" then (DefineArgs.ofArgs? args).isSome
  else if callee = "require" then (RequireArgs.ofArgs? args).isSome
  else false

/-- The arguments of a call that are walked. -/
def walkedArgs (callee : String) (args : List Expr) : List (Argument args) :=
  if callee = "define" then
    match DefineArgs.ofArgs? args with
    | none => args.attach
    | some parts => parts.array.toList.filter (·.1.isArray) ++ parts.body.toList
  else if callee = "require" then
    match RequireArgs.ofArgs? args with
    | none => args.attach
    | some (.now _) => []
    | some (.list list callbacks) => [list].filter (·.1.isArray) ++ callbacks
  else args.attach

mutual

/-- The calls that a walk over statements comes to. -/
def visitedNodes (nodes : List Node) : List Call :=
  match nodes with
  | [] => []
  | .expr e :: rest => visitedExpr e ++ visitedNodes rest
  | .tryCatch block handler :: rest =>
    visitedNodes block ++ visitedNodes handler ++ visitedNodes rest
termination_by sizeOf nodes

def visitedExpr (e : Expr) : List Call :=
  match e with
  | .call id span callee args =>
    ⟨id, span, callee, args⟩ ::
      (walkedArgs callee args).flatMap fun arg => visitedExpr arg.1
  | .function _ _ body => visitedNodes body
  | .array _ elements => elements.attach.flatMap fun element => visitedExpr element.1
  | _ => []
termination_by sizeOf e
decreasing_by
  · have := List.sizeOf_lt_of_mem arg.2
    simp_wf
    omega
  · rw [Expr.function.sizeOf_spec]
    omega
  · have := List.sizeOf_lt_of_mem element.2
    simp_wf
    omega

end

def comesToDefine (e : Expr) : Bool := (visitedExpr e).any Call.isDefine

theorem comesToDefine_call (id : UInt32) (span : Span) (callee : String) (args : List Expr) :
    comesToDefine (.call id span callee args) =
      (callee == "define" || (walkedArgs callee args).any fun arg => comesToDefine arg.1) := by
  rw [comesToDefine, visitedExpr, List.any_cons, List.any_flatMap]
  rfl

theorem comesToDefine_array (span : Span) (elements : List Expr) :
    comesToDefine (.array span elements) =
      elements.attach.any fun element => comesToDefine element.1 := by
  rw [comesToDefine, visitedExpr, List.any_flatMap]
  rfl

theorem comesToDefine_function (span : Span) (params : List String) (body : List Node) :
    comesToDefine (.function span params body) = (visitedNodes body).any Call.isDefine := by
  rw [comesToDefine, visitedExpr]

theorem any_attach_comesToDefine (es : List Expr) :
    (es.attach.any fun e => comesToDefine e.1) = es.any comesToDefine := by
  calc (es.attach.any fun e => comesToDefine e.1)
      = (es.attach.map Subtype.val).any comesToDefine := by
        rw [List.any_map]
        rfl
    _ = es.any comesToDefine := by rw [List.attach_map_subtype_val]

theorem walkedArgs_of_not_claimed {callee : String} {args : List Expr}
    (h : isClaimed callee args = false) : walkedArgs callee args = args.attach := by
  unfold isClaimed at h
  unfold walkedArgs
  split
  · rename_i hdefine
    rw [if_pos hdefine, Option.isSome_eq_false_iff, Option.isNone_iff_eq_none] at h
    rw [h]
  · rename_i hdefine
    rw [if_neg hdefine] at h
    split
    · rename_i hrequire
      rw [if_pos hrequire, Option.isSome_eq_false_iff, Option.isNone_iff_eq_none] at h
      rw [h]
    · rfl

/-- Whether an expression has nothing in it to be walked. -/
def Expr.isAtom : Expr → Bool
  | .call .. | .function .. | .array .. => false
  | _ => true

theorem comesToDefine_of_isAtom {e : Expr} (h : e.isAtom = true) : comesToDefine e = false := by
  cases e <;> simp [Expr.isAtom] at h <;> simp [comesToDefine, visitedExpr]

theorem walkExpr_of_isAtom {e : Expr} (h : e.isAtom = true) (table : HookTable) :
    table.walkExpr e = pure () := by
  cases e <;> simp [Expr.isAtom] at h <;> simp [HookTable.walkExpr]

theorem comesToDefine_of_literal {e : Expr} {value : String} (h : e.literal? = some value) :
    comesToDefine e = false := by
  refine comesToDefine_of_isAtom ?_
  cases e <;> simp [Expr.literal?] at h
  rfl

theorem literal?_of_mapM {elements : List Expr} {values : List String}
    (h : elements.mapM Expr.literal? = some values) {element : Expr} (hmem : element ∈ elements) :
    ∃ value, element.literal? = some value := by
  induction elements generalizing values with
  | nil => simp at hmem
  | cons first elements ih =>
    rw [List.mapM_cons] at h
    obtain ⟨value, hvalue, h⟩ := Option.bind_eq_some_iff.mp h
    obtain ⟨rest, hrest, -⟩ := Option.bind_eq_some_iff.mp h
    rcases List.mem_cons.mp hmem with rfl | hmem
    · exact ⟨value, hvalue⟩
    · exact ih hrest hmem

theorem literals_of_constArray {e : Expr} {ids : List String} (h : e.evaluate = .constArray ids) :
    ∃ span elements, e = .array span elements ∧ elements.mapM Expr.literal? = some ids := by
  cases e with
  | array span elements =>
    refine ⟨span, elements, rfl, ?_⟩
    rw [Expr.evaluate] at h
    cases hall : elements.mapM Expr.literal? with
    | none => simp [hall] at h
    | some values =>
      rw [hall] at h
      exact congrArg some (Evaluated.constArray.inj h)
  | _ => simp [Expr.evaluate] at h

theorem comesToDefine_of_constArray {e : Expr} {ids : List String}
    (h : e.evaluate = .constArray ids) : comesToDefine e = false := by
  obtain ⟨span, elements, rfl, hall⟩ := literals_of_constArray h
  rw [comesToDefine_array, any_attach_comesToDefine, List.any_eq_false]
  intro element helement
  obtain ⟨value, hvalue⟩ := literal?_of_mapM hall helement
  rw [comesToDefine_of_literal hvalue]
  exact Bool.false_ne_true

theorem literal?_of_string {e : Expr} {id : String} (h : e.evaluate = .string id) :
    e.literal? = some id := by
  cases e with
  | str span value => exact congrArg some (Evaluated.string.inj h)
  | array span elements =>
    rw [Expr.evaluate] at h
    split at h <;> simp at h
  | _ => simp [Expr.evaluate] at h

end AmdBundle
