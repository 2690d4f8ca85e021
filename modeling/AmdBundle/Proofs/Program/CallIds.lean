import AmdBundle.Proofs.Amd.Handler

/-!
# AmdBundle.Proofs.Program.CallIds — programs without the ids of their calls

Two programs differ in nothing but the ids of their calls if they are equal once every call has the
id 0 (`eraseIdsOfNodes`).  Nothing that is looked at in an expression to handle AMD calls hangs on
the ids in it, so a call that loses them is taken apart in the same way (`ofArgs?_eraseIds`).
-/

namespace AmdBundle

mutual

/-- The expression with 0 for the id of every call. -/
def Expr.eraseIds : Expr → Expr
  | .call _ span callee args => .call 0 span callee (eraseIdsOfExprs args)
  | .array span elements => .array span (eraseIdsOfExprs elements)
  | .function span params body => .function span params (eraseIdsOfNodes body)
  | .str span value => .str span value
  | .object span => .object span
  | .ident span name => .ident span name
  | .other span => .other span

def eraseIdsOfExprs : List Expr → List Expr
  | [] => []
  | e :: rest => e.eraseIds :: eraseIdsOfExprs rest

def eraseIdsOfNodes : List Node → List Node
  | [] => []
  | .expr e :: rest => .expr e.eraseIds :: eraseIdsOfNodes rest
  | .tryCatch block handler :: rest =>
    .tryCatch (eraseIdsOfNodes block) (eraseIdsOfNodes handler) :: eraseIdsOfNodes rest

end

theorem eraseIdsOfExprs_eq (es : List Expr) : eraseIdsOfExprs es = es.map Expr.eraseIds := by
  induction es with
  | nil => rfl
  | cons e es ih => rw [eraseIdsOfExprs, ih, List.map_cons]

def Call.eraseIds (call : Call) : Call :=
  ⟨0, call.span, call.callee, call.args.map Expr.eraseIds⟩

namespace Expr

variable (e : Expr)

@[simp] theorem span_eraseIds : e.eraseIds.span = e.span := by
  cases e <;> rfl

@[simp] theorem literal?_eraseIds : e.eraseIds.literal? = e.literal? := by
  cases e <;> rfl

@[simp] theorem isArray_eraseIds : e.eraseIds.isArray = e.isArray := by
  cases e <;> rfl

@[simp] theorem isFunction_eraseIds : e.eraseIds.isFunction = e.isFunction := by
  cases e <;> rfl

theorem eraseIds_array (span : Span) (elements : List Expr) :
    (array span elements).eraseIds = array span (elements.map eraseIds) := by
  rw [eraseIds, eraseIdsOfExprs_eq]

@[simp] theorem elements?_eraseIds :
    e.eraseIds.elements? = e.elements?.map (List.map eraseIds) := by
  cases e with
  | array span elements => exact congrArg elements? (eraseIds_array span elements)
  | _ => rfl

@[simp] theorem evaluate_eraseIds : e.eraseIds.evaluate = e.evaluate := by
  cases e with
  | array span elements =>
    have hliterals : (eraseIdsOfExprs elements).mapM literal? = elements.mapM literal? := by
      induction elements with
      | nil => rfl
      | cons e elements ih =>
        rw [eraseIdsOfExprs, List.mapM_cons, List.mapM_cons, ih, literal?_eraseIds]
    rw [eraseIds, evaluate, evaluate, hliterals]
  | _ => rfl

end Expr

namespace Amd

variable {call : Call}

theorem emptySlots_eraseIds (list : Expr) : emptySlots list.eraseIds = emptySlots list := by
  rw [emptySlots, emptySlots, Expr.elements?_eraseIds]
  cases list.elements? with
  | none => rfl
  | some elements => exact List.map_map

def Argument.eraseIds (arg : Argument call.args) : Argument call.eraseIds.args :=
  ⟨arg.1.eraseIds, List.mem_map_of_mem arg.2⟩

@[simp] theorem Argument.val_eraseIds (arg : Argument call.args) :
    (Argument.eraseIds arg).1 = arg.1.eraseIds := rfl

def DefineArgs.eraseIds (parts : DefineArgs call.args) : DefineArgs call.eraseIds.args :=
  ⟨parts.name, parts.array.map Argument.eraseIds, parts.body.map Argument.eraseIds⟩

section Define

variable (args : DefineArgs call.args)

@[simp] theorem DefineArgs.arrayRange_eraseIds : args.eraseIds.arrayRange = args.arrayRange := by
  obtain ⟨name, array, body⟩ := args
  cases array with
  | none => rfl
  | some array => exact congrArg some (Expr.span_eraseIds array.1)

@[simp] theorem DefineArgs.bodyRange_eraseIds (isFunction : Bool) :
    args.eraseIds.bodyRange isFunction = args.bodyRange isFunction := by
  obtain ⟨name, array, body⟩ := args
  cases body with
  | none => rfl
  | some body =>
    show (if body.1.eraseIds.isFunction == isFunction then some body.1.eraseIds.span else none) = _
    rw [Expr.isFunction_eraseIds, Expr.span_eraseIds]
    rfl

theorem defineDependency_eraseIds (kind : DefineKind) (localModule : Option LocalModule)
    (slots : Slots) :
    defineDependency kind args.eraseIds localModule slots =
      defineDependency kind args localModule slots := by
  rw [defineDependency, defineDependency, args.arrayRange_eraseIds, args.bodyRange_eraseIds,
    args.bodyRange_eraseIds]
  rfl

end Define

def RequireArgs.eraseIds : RequireArgs call.args → RequireArgs call.eraseIds.args
  | .now id => .now id
  | .list ids callbacks => .list (Argument.eraseIds ids) (callbacks.map Argument.eraseIds)

theorem DefineArgs.ofArgs?_eraseIds (call : Call) :
    ofArgs? call.eraseIds.args = (ofArgs? call.args).map DefineArgs.eraseIds := by
  obtain ⟨id, span, callee, args⟩ := call
  match args with
  | [] => rfl
  | [only] => cases only <;> rfl
  | [first, _] => cases first <;> rfl
  | [first, _, _] => cases first <;> rfl
  | _ :: _ :: _ :: _ :: _ => rfl

theorem RequireArgs.ofArgs?_eraseIds (call : Call) :
    ofArgs? call.eraseIds.args = (ofArgs? call.args).map RequireArgs.eraseIds := by
  obtain ⟨id, span, callee, args⟩ := call
  match args with
  | [] => rfl
  | [only] => cases only <;> rfl
  | [first, callback] =>
    show ofArgs? [first.eraseIds, callback.eraseIds] = _
    rw [ofArgs?, ofArgs?, Expr.evaluate_eraseIds]
    cases first.evaluate <;> rfl
  | [first, callback, onError] =>
    show ofArgs? [first.eraseIds, callback.eraseIds, onError.eraseIds] = _
    rw [ofArgs?, ofArgs?, Expr.evaluate_eraseIds]
    cases first.evaluate <;> rfl
  | _ :: _ :: _ :: _ :: _ => rfl

end Amd
end AmdBundle
