import AmdBundle.Amd.Handler
import AmdBundle.Proofs.Walk.Run

/-!
# AmdBundle.Proofs.Amd.Handler — which calls the handler claims

The handler claims a call if its arguments have one of the shapes it knows, and passes it on without
a trace if they have none.  Which it is does not depend on the state.

A `define` call that it claims goes through four steps (`handleDefine_eq`), and a list of ids that
nobody claims as a whole through one for each element (`processArray_of_array`).
-/

namespace AmdBundle
namespace Amd

variable {call : Call} {host : CallHost call}

theorem callDefine_of_none (h : DefineArgs.ofArgs? call.args = none) :
    callDefine call host = pure .pass := by
  rw [callDefine, h]

theorem callDefine_of_some {args : DefineArgs call.args}
    (h : DefineArgs.ofArgs? call.args = some args) :
    callDefine call host = handleDefine host args >>= fun _ => pure .claim := by
  rw [callDefine, h]

theorem callRequire_of_none (h : RequireArgs.ofArgs? call.args = none) :
    callRequire call host = pure .pass := by
  rw [callRequire, h]

theorem callRequire_of_now {id : String} (h : RequireArgs.ofArgs? call.args = some (.now id)) :
    callRequire call host = WalkM.record (.require id) >>= fun _ => pure .claim := by
  rw [callRequire, h]

theorem callRequire_of_list {list : Argument call.args} {callbacks : List (Argument call.args)}
    (h : RequireArgs.ofArgs? call.args = some (.list list callbacks)) :
    callRequire call host = handleRequire host list callbacks >>= fun _ => pure .claim := by
  rw [callRequire, h]

theorem processArray_of_array {list : Argument call.args} {span : Span} {elements : List Expr}
    (h : list.1 = .array span elements) (slots : Slots) (named : Option String) :
    processArray host list slots named =
      host.askArray list.1 slots named >>= fun answer =>
        match answer with
        | (.claim, slots) => pure slots
        | (.pass, slots) =>
          (elements.attach.forM fun element =>
            processElement host named element.1
              (sizeOf_lt_of_mem_elements list.2 h element.2)) >>= fun _ => pure slots := by
  obtain ⟨e, he⟩ := list
  cases h
  rfl

theorem processArray_of_not_array {list : Argument call.args} (h : list.1.isArray = false)
    (slots : Slots) (named : Option String) :
    processArray host list slots named =
      host.askArray list.1 slots named >>= fun answer =>
        match answer with
        | (.claim, slots) => pure slots
        | (.pass, slots) =>
          warnAt "dependency list" list.1.span.start "is not a constant array" >>= fun _ =>
            pure slots := by
  obtain ⟨e, he⟩ := list
  cases e with
  | array span elements => exact absurd h (by simp [Expr.isArray])
  | _ => rfl

/-- Handles the list of a `define` call, if there is one. -/
def processList (host : CallHost call) (args : DefineArgs call.args) : WalkM Slots :=
  match args.array with
  | some array => processArray host array (emptySlots array.1) args.name
  | none => pure []

def walkBody (host : CallHost call) (args : DefineArgs call.args) : WalkM Unit :=
  match args.body with
  | some body => walkArgument host body
  | none => pure ()

def DefineArgs.arrayRange (args : DefineArgs call.args) : Option Span :=
  args.array.map fun array => array.1.span

/-- Where the body of a `define` call stands, if it is a function or if it is none. -/
def DefineArgs.bodyRange (args : DefineArgs call.args) (isFunction : Bool) : Option Span :=
  args.body.bind fun body => if body.1.isFunction == isFunction then some body.1.span else none

def defineDependency (kind : DefineKind) (args : DefineArgs call.args)
    (localModule : Option LocalModule) (slots : Slots) : Dependency :=
  .define {
    kind
    loc := call.span
    parts := {
      range := call.span
      arrayRange := args.arrayRange
      functionRange := args.bodyRange true
      objectRange := args.bodyRange false
      localModule
      paramBindings := slots } }

theorem handleDefine_eq (args : DefineArgs call.args) :
    handleDefine host args =
      declare args.name >>= fun localModule => processList host args >>= fun slots =>
        walkBody host args >>= fun _ =>
          WalkM.record (defineDependency host.defineKind args localModule slots) := by
  obtain ⟨name, array, body⟩ := args
  cases array <;> cases body <;> rfl

theorem claim_bind (x : WalkM Unit) (other : WalkM Verdict) :
    ((x >>= fun _ => pure Verdict.claim) >>= fun verdict =>
      match verdict with
      | .claim => pure .claim
      | .pass => other) = x >>= fun _ => pure .claim := by
  rw [bind_assoc]
  rfl

/-- A `define` call that is claimed is offered to nobody else, and one that is not has no trace. -/
theorem callDefine_bind {other : WalkM Verdict}
    (h : DefineArgs.ofArgs? call.args = none → other = pure .pass) :
    (callDefine call host >>= fun verdict =>
      match verdict with
      | .claim => pure .claim
      | .pass => other) = callDefine call host := by
  cases hargs : DefineArgs.ofArgs? call.args with
  | none =>
    rw [callDefine_of_none hargs, pure_bind]
    exact h hargs
  | some args => rw [callDefine_of_some hargs, claim_bind]

theorem callRequire_bind {other : WalkM Verdict}
    (h : RequireArgs.ofArgs? call.args = none → other = pure .pass) :
    (callRequire call host >>= fun verdict =>
      match verdict with
      | .claim => pure .claim
      | .pass => other) = callRequire call host := by
  cases hargs : RequireArgs.ofArgs? call.args with
  | none =>
    rw [callRequire_of_none hargs, pure_bind]
    exact h hargs
  | some args =>
    cases args with
    | now id => rw [callRequire_of_now hargs, claim_bind]
    | list list callbacks => rw [callRequire_of_list hargs, claim_bind]

end Amd
end AmdBundle
