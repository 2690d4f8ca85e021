import AmdBundle.Proofs.Amd.HostForm
import AmdBundle.Proofs.Amd.Positions
import AmdBundle.Proofs.Walk.AmdTable
import AmdBundle.Proofs.Walk.Calls

/-!
# AmdBundle.Proofs.Walk.Account — what a walk notes of a file

An `Entry` is one thing that a claimed call says: an id, a list, the `define` call as a whole, or a
warning.  What a walk records for it depends on where the walk is, so a `Note` keeps the entry with
the local modules declared so far and the `try` mark.  `Told` tells, by rules that follow the syntax
tree, which notes a walk takes and which local modules it leaves; `FileState.Noted` is what becomes
of a file by notes.

Whatever plugins for AMD calls a table has, the handler among them, a walk takes notes as `Told`
says (`exists_told_walk`).  All that is left open is how pseudo-modules are rendered, what carries
out `define` calls (`Manner`), and where the loader's script is noted.
-/

namespace AmdBundle

open Amd

/-! ### Entries and notes -/

/-- One thing that a claimed call says of the file. -/
inductive Entry where
  /-- An id that is needed at once. -/
  | need (id : String)
  /-- A constant list, inside the module `named`. -/
  | list (span : Span) (ids : List String) (named : Option String)
  /-- An id in a list that is not constant. -/
  | single (span : Span) (id : String) (named : Option String)
  /-- An element of a list that is no id. -/
  | noId (place : UInt32)
  /-- A list that is no array literal. -/
  | noList (place : UInt32)
  /-- A `define` call as a whole. -/
  | define (call : Call) (args : DefineArgs call.args)

/-- What the plugins of a table leave open of what is recorded. -/
structure Manner where
  /-- The module that the file holds. -/
  identity : ModuleIdentity
  render : Render
  kind : DefineKind

/-- The names that a list of ids gives to function parameters. -/
def Amd.boundNames (list : Expr) : Slots :=
  match list.evaluate with
  | .constArray ids => ids.map PseudoModule.bound?
  | _ => emptySlots list

/-- The local module that a call declares, if it names one. -/
def LocalModules.declared (locals : LocalModules) (name : Option String) : Option LocalModule :=
  name.map fun name => (locals.add name).1

/-- The local modules with the one that a call declares, if it names one. -/
def LocalModules.declare (locals : LocalModules) (name : Option String) : LocalModules :=
  name.elim locals fun name => (locals.add name).2

namespace Entry

def dependencies (m : Manner) (locals : LocalModules) (inTry : Bool) : Entry → List Dependency
  | need id => [.require id]
  | list span ids named =>
    FileState.listDependencies { identity := m.identity, locals, inTry } ids span named m.render
  | single span id named =>
    let item := FileState.classify { identity := m.identity, locals } id named m.render
    [.item ⟨item, some span, span, inTry⟩]
  | noId _ | noList _ => []
  | define _ args =>
    let slots := args.array.elim [] fun list => boundNames list.1
    [defineDependency m.kind args (locals.declared args.name) slots]

def warnings (m : Manner) : Entry → List String
  | noId place =>
    [m.identity.request ++ ": " ++ "dependency" ++ " at " ++ placeText place ++ " " ++
      "is not a string literal"]
  | noList place =>
    [m.identity.request ++ ": " ++ "dependency list" ++ " at " ++ placeText place ++ " " ++
      "is not a constant array"]
  | _ => []

end Entry

/-- An entry where the walk comes to it, or the loader's script. -/
inductive Note where
  | script (loader : String)
  | said (entry : Entry) (locals : LocalModules) (inTry : Bool)

namespace Note

def dependencies (m : Manner) : Note → List Dependency
  | script loader => [.require loader]
  | said entry locals inTry => entry.dependencies m locals inTry

def warnings (m : Manner) : Note → List String
  | script _ => []
  | said entry _ _ => entry.warnings m

end Note

/-! ### What a walk notes -/

/-- What is walked. -/
inductive Task where
  | nodes (nodes : List Node)
  | expr (e : Expr)
  | exprs (es : List Expr)
  /-- The list of a call, if it has one, inside the module `named`. -/
  | list (list : Option Expr) (named : Option String)
  /-- The elements of a list that is not constant. -/
  | elements (elements : List Expr) (named : Option String)

/-- The notes that a walk takes, from the local modules declared before to those declared after. -/
inductive Told : Task → Bool → LocalModules → List Note → LocalModules → Prop
  | nodes_nil {inTry : Bool} {locals : LocalModules} : Told (.nodes []) inTry locals [] locals
  | nodes_expr {e : Expr} {rest : List Node} {inTry : Bool} {locals mid after : LocalModules}
      {notes notes' : List Note} (he : Told (.expr e) inTry locals notes mid)
      (hrest : Told (.nodes rest) inTry mid notes' after) :
      Told (.nodes (.expr e :: rest)) inTry locals (notes ++ notes') after
  | nodes_try {block handler rest : List Node} {inTry : Bool}
      {locals mid mid' after : LocalModules} {notes notes' notes'' : List Note}
      (hblock : Told (.nodes block) true locals notes mid)
      (hhandler : Told (.nodes handler) inTry mid notes' mid')
      (hrest : Told (.nodes rest) inTry mid' notes'' after) :
      Told (.nodes (.tryCatch block handler :: rest)) inTry locals (notes ++ (notes' ++ notes''))
        after
  | atom {e : Expr} {inTry : Bool} {locals : LocalModules} (h : e.isAtom = true) :
      Told (.expr e) inTry locals [] locals
  | function {span : Span} {params : List String} {body : List Node} {inTry : Bool}
      {locals after : LocalModules} {notes : List Note}
      (h : Told (.nodes body) false locals notes after) :
      Told (.expr (.function span params body)) inTry locals notes after
  | array {span : Span} {elements : List Expr} {inTry : Bool} {locals after : LocalModules}
      {notes : List Note} (h : Told (.exprs elements) inTry locals notes after) :
      Told (.expr (.array span elements)) inTry locals notes after
  /-- A call that nobody claims. -/
  | unclaimed {call : Call} {inTry : Bool} {locals after : LocalModules} {notes : List Note}
      (hclaimed : isClaimed call.callee call.args = false)
      (h : Told (.exprs call.args) inTry locals notes after) :
      Told (.expr call.toExpr) inTry locals notes after
  /-- The loader's script, before what else is noted of a `define` call. -/
  | script {call : Call} {inTry : Bool} {locals after : LocalModules} {notes : List Note}
      (loader : String) (hcallee : call.callee = "define")
      (h : Told (.expr call.toExpr) inTry locals notes after) :
      Told (.expr call.toExpr) inTry locals (.script loader :: notes) after
  | need {call : Call} {id : String} {inTry : Bool} {locals : LocalModules}
      (hcallee : call.callee = "require")
      (hargs : RequireArgs.ofArgs? call.args = some (.now id)) :
      Told (.expr call.toExpr) inTry locals [.said (.need id) locals inTry] locals
  | require {call : Call} {list : Argument call.args} {callbacks : List (Argument call.args)}
      {inTry : Bool} {locals mid after : LocalModules} {notes notes' : List Note}
      (hcallee : call.callee = "require")
      (hargs : RequireArgs.ofArgs? call.args = some (.list list callbacks))
      (hlist : Told (.list (some list.1) none) inTry locals notes mid)
      (hcallbacks : Told (.exprs (callbacks.map Subtype.val)) inTry mid notes' after) :
      Told (.expr call.toExpr) inTry locals (notes ++ notes') after
  /-- The name is declared first, and the call is recorded last. -/
  | define {call : Call} {args : DefineArgs call.args} {inTry : Bool}
      {locals mid after : LocalModules} {notes notes' : List Note}
      (hcallee : call.callee = "define") (hargs : DefineArgs.ofArgs? call.args = some args)
      (hlist : Told (.list (args.array.map Subtype.val) args.name) inTry
        (locals.declare args.name) notes mid)
      (hbody : Told (.exprs (args.body.toList.map Subtype.val)) inTry mid notes' after) :
      Told (.expr call.toExpr) inTry locals
        (notes ++ notes' ++ [.said (.define call args) locals inTry]) after
  | exprs_nil {inTry : Bool} {locals : LocalModules} : Told (.exprs []) inTry locals [] locals
  | exprs_cons {e : Expr} {rest : List Expr} {inTry : Bool} {locals mid after : LocalModules}
      {notes notes' : List Note} (he : Told (.expr e) inTry locals notes mid)
      (hrest : Told (.exprs rest) inTry mid notes' after) :
      Told (.exprs (e :: rest)) inTry locals (notes ++ notes') after
  | no_list {named : Option String} {inTry : Bool} {locals : LocalModules} :
      Told (.list none named) inTry locals [] locals
  | const_list {list : Expr} {ids : List String} {named : Option String} {inTry : Bool}
      {locals : LocalModules} (hlist : list.evaluate = .constArray ids) :
      Told (.list (some list) named) inTry locals
        [.said (.list list.span ids named) locals inTry] locals
  | mixed_list {span : Span} {elements : List Expr} {named : Option String} {inTry : Bool}
      {locals after : LocalModules} {notes : List Note}
      (hlist : (Expr.array span elements).evaluate.isConstArray = false)
      (h : Told (.elements elements named) inTry locals notes after) :
      Told (.list (some (.array span elements)) named) inTry locals notes after
  | other_list {list : Expr} {named : Option String} {inTry : Bool} {locals : LocalModules}
      (hlist : list.isArray = false) :
      Told (.list (some list) named) inTry locals
        [.said (.noList list.span.start) locals inTry] locals
  | elements_nil {named : Option String} {inTry : Bool} {locals : LocalModules} :
      Told (.elements [] named) inTry locals [] locals
  | elements_id {element : Expr} {id : String} {rest : List Expr} {named : Option String}
      {inTry : Bool} {locals after : LocalModules} {notes : List Note}
      (hid : element.evaluate = .string id)
      (hrest : Told (.elements rest named) inTry locals notes after) :
      Told (.elements (element :: rest) named) inTry locals
        (.said (.single element.span id named) locals inTry :: notes) after
  | elements_other {element : Expr} {rest : List Expr} {named : Option String} {inTry : Bool}
      {locals mid after : LocalModules} {notes notes' : List Note}
      (hid : element.evaluate.isString = false)
      (helement : Told (.expr element) inTry locals notes mid)
      (hrest : Told (.elements rest named) inTry mid notes' after) :
      Told (.elements (element :: rest) named) inTry locals
        (.said (.noId element.span.start) locals inTry :: (notes ++ notes')) after

/-! ### What becomes of a file by notes -/

/-- The later state of a file has what the notes say on top of what the earlier one has. -/
structure FileState.Noted (m : Manner) (notes : List Note) (state after : FileState) : Prop where
  identity : after.identity = state.identity
  inTry : after.inTry = state.inTry
  dependencies : after.dependencies = state.dependencies ++ notes.flatMap (Note.dependencies m)
  warnings : after.warnings = state.warnings ++ notes.flatMap (Note.warnings m)

namespace FileState.Noted

variable {m : Manner} {notes notes' : List Note} {state mid after : FileState}

theorem nil (hidentity : after.identity = state.identity) (hinTry : after.inTry = state.inTry)
    (hdependencies : after.dependencies = state.dependencies)
    (hwarnings : after.warnings = state.warnings) : state.Noted m [] after where
  identity := hidentity
  inTry := hinTry
  dependencies := by rw [hdependencies, List.flatMap_nil, List.append_nil]
  warnings := by rw [hwarnings, List.flatMap_nil, List.append_nil]

theorem refl (m : Manner) (state : FileState) : state.Noted m [] state := nil rfl rfl rfl rfl

theorem trans (h : state.Noted m notes mid) (h' : mid.Noted m notes' after) :
    state.Noted m (notes ++ notes') after where
  identity := h'.identity.trans h.identity
  inTry := h'.inTry.trans h.inTry
  dependencies := by
    rw [h'.dependencies, h.dependencies, List.flatMap_append, List.append_assoc]
  warnings := by rw [h'.warnings, h.warnings, List.flatMap_append, List.append_assoc]

theorem withTry {value : Bool} (h : FileState.Noted m notes { state with inTry := value } after) :
    state.Noted m notes { after with inTry := state.inTry } where
  identity := h.identity
  inTry := rfl
  dependencies := h.dependencies
  warnings := h.warnings

theorem leave (h : state.Noted m notes after) (id : UInt32) :
    state.Noted m notes (after.leave id) :=
  ⟨h.identity, h.inTry, h.dependencies, h.warnings⟩

theorem recorded {note : Note} (hdependencies :
      after.dependencies = state.dependencies ++ note.dependencies m)
    (hidentity : after.identity = state.identity) (hinTry : after.inTry = state.inTry)
    (hwarnings : after.warnings = state.warnings) (hnone : note.warnings m = []) :
    state.Noted m [note] after where
  identity := hidentity
  inTry := hinTry
  dependencies := by rw [hdependencies, List.flatMap_singleton]
  warnings := by rw [hwarnings, List.flatMap_singleton, hnone, List.append_nil]

end FileState.Noted

end AmdBundle
