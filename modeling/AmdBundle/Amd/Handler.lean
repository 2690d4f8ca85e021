import AmdBundle.Amd.Items
import AmdBundle.Options
import AmdBundle.Walk.Hooks

/-!
# AmdBundle.Amd.Handler — AMD calls as the host handles them

The plugin that takes `define` and `require` calls apart.  It is asked last, so that other plugins
can claim lists and ids before it.

* `define([name,] [list,] body)`: declares the local module, handles the list, walks the body and
  records the call.
* `require("id")`: records the id as needed at once.
* `require(list [, callback [, callback]])`: handles the list and walks the callbacks.

Calls of other shapes are passed on.
-/

namespace AmdBundle
namespace Amd

/-- An argument among those of a call. -/
abbrev Argument (args : List Expr) : Type := { e : Expr // e ∈ args }

/-- The parts of a `define` call. -/
structure DefineArgs (args : List Expr) where
  name : Option String
  array : Option (Argument args)
  body : Option (Argument args)

namespace DefineArgs

/-- The parts that arguments are, if they have the shape of a `define` call. -/
def ofArgs? : (args : List Expr) → Option (DefineArgs args)
  | [only] =>
    if only.isArray then some ⟨none, some ⟨only, by simp⟩, none⟩
    else some ⟨none, none, some ⟨only, by simp⟩⟩
  | [first, body] =>
    match first.literal? with
    | some name => some ⟨some name, none, some ⟨body, by simp⟩⟩
    | none => some ⟨none, some ⟨first, by simp⟩, some ⟨body, by simp⟩⟩
  | [first, array, body] =>
    first.literal?.map fun name => ⟨some name, some ⟨array, by simp⟩, some ⟨body, by simp⟩⟩
  | _ => none

end DefineArgs

/-- The expression that the host's generated code has for a pseudo-module. -/
def hostRender : Render
  | .require => defaultRequireIdent
  | .module => "module"
  | .exports => "exports"

/-- One empty slot for each entry of an array literal. -/
def emptySlots (list : Expr) : Slots :=
  (list.elements?.getD []).map fun _ => none

def placeText (place : UInt32) : String := toString place.toNat

variable {call : Call} (host : CallHost call)

def walkArgument (arg : Argument call.args) : WalkM Unit :=
  host.walk arg.1 (List.sizeOf_lt_of_mem arg.2)

/-- Warns of something at a place in the file. -/
def warnAt (what : String) (place : UInt32) (problem : String) : WalkM Unit :=
  WalkM.update fun state =>
    let file := state.identity.request
    state.warn (file ++ ": " ++ what ++ " at " ++ placeText place ++ " " ++ problem)

/-- Handles an element of a list that nobody claimed as a whole. -/
def processElement (named : Option String) (element : Expr)
    (h : sizeOf element < sizeOf call.args) : WalkM Unit := do
  match ← host.askItem element named with
  | .claim => pure ()
  | .pass => do
    warnAt "dependency" element.span.start "is not a string literal"
    host.walk element h

theorem sizeOf_lt_of_mem_elements {args elements : List Expr} {list element : Expr} {span : Span}
    (h : list ∈ args) (hl : list = .array span elements) (he : element ∈ elements) :
    sizeOf element < sizeOf args := by
  have h1 := List.sizeOf_lt_of_mem he
  have h2 := List.sizeOf_lt_of_mem h
  subst hl
  simp only [Expr.array.sizeOf_spec] at h2
  omega

/-- Handles a list of ids: it is offered as a whole, and if nobody claims it each of its elements
is.  Gives the slots as the hooks left them. -/
def processArray (list : Argument call.args) (slots : Slots) (named : Option String) :
    WalkM Slots := do
  match ← host.askArray list.1 slots named with
  | (.claim, slots) => return slots
  | (.pass, slots) => do
    match hl : list.1 with
    | .array _ elements =>
      elements.attach.forM fun element =>
        processElement host named element.1 (sizeOf_lt_of_mem_elements list.2 hl element.2)
    | e => warnAt "dependency list" e.span.start "is not a constant array"
    return slots

/-- Declares the local module of a call, if it names one. -/
def declare (name : Option String) : WalkM (Option LocalModule) :=
  WalkM.ofFun fun state =>
    match name with
    | none => (.ok none, state)
    | some name =>
      let (entry, locals) := state.locals.add name
      (.ok (some entry), { state with locals })

/-- Handles a `define` call with the given parts. -/
def handleDefine (args : DefineArgs call.args) : WalkM Unit := do
  let localModule ← declare args.name
  let slots ←
    match args.array with
    | some array => processArray host array (emptySlots array.1) args.name
    | none => pure []
  match args.body with
  | some body => walkArgument host body
  | none => pure ()
  let bodyRange (isFunction : Bool) : Option Span :=
    args.body.bind fun body => if body.1.isFunction == isFunction then some body.1.span else none
  WalkM.record <| .define {
    kind := host.defineKind
    loc := call.span
    parts := {
      range := call.span
      arrayRange := args.array.map fun array => array.1.span
      functionRange := bodyRange true
      objectRange := bodyRange false
      localModule := localModule
      paramBindings := slots } }

def callDefine (call : Call) (host : CallHost call) : WalkM Verdict :=
  match DefineArgs.ofArgs? call.args with
  | none => pure .pass
  | some args => do
    handleDefine host args
    return .claim

/-- Handles a list of ids and then the callbacks. -/
def handleRequire (list : Argument call.args) (callbacks : List (Argument call.args)) :
    WalkM Unit := do
  discard <| processArray host list (emptySlots list.1) none
  callbacks.forM (walkArgument host)

/-- What a `require` call is. -/
inductive RequireArgs (args : List Expr) where
  /-- A single id, needed at once. -/
  | now (id : String)
  | list (list : Argument args) (callbacks : List (Argument args))

namespace RequireArgs

/-- What a `require` call with the given arguments is, if it is one that can be handled.  A lone
argument that is no array is a request computed at run time. -/
def ofArgs? : (args : List Expr) → Option (RequireArgs args)
  | [only] =>
    match only.literal? with
    | some id => some (.now id)
    | none => if only.isArray then some (.list ⟨only, by simp⟩ []) else none
  | [first, callback] =>
    if first.evaluate.isString then none else some (.list ⟨first, by simp⟩ [⟨callback, by simp⟩])
  | [first, callback, onError] =>
    if first.evaluate.isString then none
    else some (.list ⟨first, by simp⟩ [⟨callback, by simp⟩, ⟨onError, by simp⟩])
  | _ => none

end RequireArgs

def callRequire (call : Call) (host : CallHost call) : WalkM Verdict :=
  match RequireArgs.ofArgs? call.args with
  | none => pure .pass
  | some (.now id) => do
    WalkM.record (.require id)
    return .claim
  | some (.list list callbacks) => do
    handleRequire host list callbacks
    return .claim

def handler : Plugin where
  name := "amd"
  level := .post
  callDefine := callDefine
  callRequire := callRequire
  amdArray _ _ param slots named := claimArray (fun _ => hostRender) param slots named
  amdItem _ _ param named := claimItem (fun _ => hostRender) param named

end Amd

def HookTable.standard : HookTable := HookTable.empty.add Amd.handler

end AmdBundle
