import AmdBundle.Walk.Hooks

/-!
# AmdBundle.Amd.Items — the ids of AMD dependency lists

An id means a pseudo-module before a local one, and this before a module elsewhere.  Of a constant
list every entry that is no pseudo-module is recorded on its own, for the host to resolve, and then
the list as one; the names of pseudo-modules go into the slots.
-/

namespace AmdBundle

/-- The expression that generated code has for a pseudo-module. -/
abbrev Render : Type := PseudoModule → String

namespace FileState

/-- What an id means in a file. -/
def classify (state : FileState) (id : String) (named : Option String) (render : Render) :
    AmdItem :=
  match PseudoModule.ofId? id with
  | some pseudo => .pseudo pseudo (render pseudo)
  | none =>
    match state.locals.get? id named with
    | some entry => .localModule entry
    | none => .external ⟨id, state.identity⟩

/-- The dependency that an entry of a list is on its own. -/
def entryDependency? (span : Span) (optional : Bool) : AmdItem → Option Dependency
  | .pseudo _ _ => none
  | item => some (.item ⟨item, none, span, optional⟩)

/-- The slots with the names of the pseudo-modules at their places. -/
def bindPseudo : List AmdItem → Slots → Slots
  | .pseudo pseudo _ :: items, _ :: slots => some pseudo.id :: bindPseudo items slots
  | _ :: items, slot :: slots => slot :: bindPseudo items slots
  | _, slots => slots

/-- Records a constant list of ids; gives the slots with the names that it binds. -/
def addArray (state : FileState) (ids : List String) (span : Span) (slots : Slots)
    (named : Option String) (render : Render) : FileState × Slots :=
  let items := ids.map fun id => state.classify id named render
  let entries := items.filterMap (entryDependency? span state.inTry)
  let list : Dependency := .array ⟨items, span, span, state.inTry⟩
  ({ state with dependencies := state.dependencies ++ entries ++ [list] }, bindPseudo items slots)

def addItem (state : FileState) (id : String) (span : Span) (named : Option String)
    (render : Render) : FileState :=
  state.record (.item ⟨state.classify id named render, some span, span, state.inTry⟩)

end FileState

namespace Amd

/-- Claims an array of string literals and records it; any other list is passed on.  `render` may
depend on the module that the file holds. -/
def claimArray (render : ModuleIdentity → Render) (param : Expr) (slots : Slots)
    (named : Option String) : WalkM (Verdict × Slots) :=
  match param.evaluate with
  | .constArray ids =>
    WalkM.ofFun fun state =>
      let (state, slots) := state.addArray ids param.span slots named (render state.identity)
      (.ok (.claim, slots), state)
  | _ => pure (.pass, slots)

/-- Claims a string literal and records it; any other expression is passed on. -/
def claimItem (render : ModuleIdentity → Render) (param : Expr) (named : Option String) :
    WalkM Verdict :=
  match param.evaluate with
  | .string id =>
    WalkM.ofFun fun state => (.ok .claim, state.addItem id param.span named (render state.identity))
  | _ => pure .pass

end Amd
end AmdBundle
