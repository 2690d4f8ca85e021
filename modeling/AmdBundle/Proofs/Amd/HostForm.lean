import AmdBundle.Amd.Handler

/-!
# AmdBundle.Proofs.Amd.HostForm — dependencies as the host alone would record them

The host form of a dependency has the host's expressions for pseudo-modules, and the host carries
out its `define` calls (`Dependency.toHost`).  What is recorded for a list or an id under any
rendering is, in host form, what the host's own rendering records.
-/

namespace AmdBundle

def AmdItem.toHost : AmdItem → AmdItem
  | .pseudo known _ => .pseudo known (Amd.hostRender known)
  | item => item

/-- The dependency as the host alone would record it. -/
def Dependency.toHost : Dependency → Dependency
  | .require request => .require request
  | .item dependency => .item { dependency with item := dependency.item.toHost }
  | .array dependency => .array { dependency with items := dependency.items.map AmdItem.toHost }
  | .define dependency => .define { dependency with kind := .standard }

namespace FileState

variable {ids : List String} {id : String} {span : Span} {optional : Bool} {slots : Slots}
  {named : Option String} {render : Render} {state other : FileState}

theorem toHost_classify :
    (state.classify id named render).toHost = state.classify id named Amd.hostRender := by
  unfold classify
  cases PseudoModule.ofId? id with
  | some pseudo => rfl
  | none =>
    dsimp only
    cases state.locals.get? id named <;> rfl

theorem classify_congr (hidentity : state.identity = other.identity)
    (hlocals : state.locals = other.locals) :
    state.classify id named render = other.classify id named render := by
  rw [classify, classify, hidentity, hlocals]

theorem toHost_entryDependency? (item : AmdItem) :
    (entryDependency? span optional item).map Dependency.toHost =
      entryDependency? span optional item.toHost := by
  cases item <;> rfl

theorem bindPseudo_map_toHost (items : List AmdItem) (slots : Slots) :
    bindPseudo (items.map AmdItem.toHost) slots = bindPseudo items slots := by
  induction items generalizing slots with
  | nil => rfl
  | cons item items ih =>
    cases slots with
    | nil => cases item <;> rfl
    | cons slot slots =>
      cases item with
      | pseudo pseudo expression => exact congrArg (some pseudo.id :: ·) (ih slots)
      | localModule entry => exact congrArg (slot :: ·) (ih slots)
      | external ref => exact congrArg (slot :: ·) (ih slots)

def listDependencies (state : FileState) (ids : List String) (span : Span)
    (named : Option String) (render : Render) : List Dependency :=
  let items := ids.map fun id => state.classify id named render
  items.filterMap (entryDependency? span state.inTry) ++ [.array ⟨items, span, span, state.inTry⟩]

theorem fst_addArray :
    (state.addArray ids span slots named render).1 =
      { state with
        dependencies := state.dependencies ++ state.listDependencies ids span named render } := by
  rw [addArray, listDependencies, List.append_assoc]

theorem snd_addArray :
    (state.addArray ids span slots named render).2 =
      bindPseudo (ids.map fun id => state.classify id named render) slots := rfl

theorem map_toHost_classify :
    (ids.map fun id => state.classify id named render).map AmdItem.toHost =
      ids.map fun id => state.classify id named Amd.hostRender := by
  rw [List.map_map]
  exact List.map_congr_left fun id _ => toHost_classify

theorem map_toHost_listDependencies :
    (state.listDependencies ids span named render).map Dependency.toHost =
      state.listDependencies ids span named Amd.hostRender := by
  have hentries : ∀ items : List AmdItem,
      (items.filterMap (entryDependency? span state.inTry)).map Dependency.toHost =
        (items.map AmdItem.toHost).filterMap (entryDependency? span state.inTry) := by
    intro items
    rw [List.map_filterMap, List.filterMap_map]
    exact congrArg (List.filterMap · items) (funext toHost_entryDependency?)
  rw [listDependencies, listDependencies, List.map_append, hentries, map_toHost_classify]
  show _ ++ [Dependency.array
    ⟨(ids.map fun id => state.classify id named render).map AmdItem.toHost, span, span,
      state.inTry⟩] = _
  rw [map_toHost_classify]

theorem snd_addArray_eq :
    (state.addArray ids span slots named render).2 =
      (state.addArray ids span slots named Amd.hostRender).2 := by
  rw [snd_addArray, snd_addArray, ← bindPseudo_map_toHost, map_toHost_classify]

theorem listDependencies_congr (hidentity : state.identity = other.identity)
    (hlocals : state.locals = other.locals) (hinTry : state.inTry = other.inTry) :
    state.listDependencies ids span named render =
      other.listDependencies ids span named render := by
  have hitems : (fun id => state.classify id named render) =
      fun id => other.classify id named render :=
    funext fun id => classify_congr hidentity hlocals
  rw [listDependencies, listDependencies, hitems, hinTry]

end FileState
end AmdBundle
