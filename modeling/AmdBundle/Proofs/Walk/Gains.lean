import AmdBundle.Proofs.Amd.HostForm
import AmdBundle.Proofs.Walk.Calls

/-!
# AmdBundle.Proofs.Walk.Gains — what is recorded, against the literals of a program

What dependencies say of the calls and the literals of a program: they `Refers` to some of the
literals in their order, with the marks these have, and they name what the calls need at once.
Between two states of a file a walk `Gains` such dependencies, and one on the loader's script when it
marks the file.
-/

namespace AmdBundle

open Amd

/-! ### References -/

namespace Dependency

/-- The request of a dependency on a module elsewhere that a list of ids names, with whether the
module may be missing. -/
def external? : Dependency → Option (String × Bool)
  | item ⟨.external ref, _, _, optional⟩ => some (ref.request, optional)
  | _ => none

/-- The request of a module that must be there at once. -/
def required? : Dependency → Option String
  | require request => some request
  | _ => none

theorem required?_of_request? {dependency : Dependency} (h : dependency.request? = none) :
    dependency.required? = none := by
  cases dependency with
  | require request => simp [request?] at h
  | _ => rfl

end Dependency

/-- The id that a call of `require` needs at once: its one argument, if that is a string literal. -/
def Call.need? (call : Call) : Option String :=
  match call.args with
  | [only] => if call.callee = "require" then only.literal? else none
  | _ => none

theorem Call.need?_of_now {call : Call} {id : String} (hcallee : call.callee = "require")
    (h : RequireArgs.ofArgs? call.args = some (.now id)) : call.need? = some id := by
  obtain ⟨only, honly, htext⟩ := RequireArgs.args_eq_of_now h
  rw [need?, honly]
  exact (if_pos hcallee).trans htext

theorem Call.need?_of_callee_ne {call : Call} (h : call.callee ≠ "require") :
    call.need? = none := by
  unfold need?
  split
  · rw [if_neg h]
  · rfl

theorem Call.need?_of_not_now {call : Call}
    (h : ∀ id, RequireArgs.ofArgs? call.args ≠ some (.now id)) : call.need? = none := by
  unfold need?
  split
  · rename_i only hargs
    split
    · cases htext : only.literal? with
      | none => rfl
      | some text =>
        have hnow : RequireArgs.ofArgs? [only] = some (.now text) := by
          rw [RequireArgs.ofArgs?, htext]
        rw [hargs] at h
        exact absurd hnow (h text)
    · rfl
  · rfl

/-- `rest` is `all` without one dependency on the loader's script, if there is a loader. -/
def IsWithout (loader? : Option String) (all rest : List Dependency) : Prop :=
  match loader? with
  | none => all = rest
  | some loader => ∃ before after, all = before ++ .require loader :: after ∧ rest = before ++ after

namespace IsWithout

variable {loader? : Option String} {all rest more : List Dependency}

theorem append (h : IsWithout loader? all rest) (more : List Dependency) :
    IsWithout loader? (all ++ more) (rest ++ more) := by
  cases loader? with
  | none => exact congrArg (· ++ more) (show all = rest from h)
  | some loader =>
    obtain ⟨before, after, rfl, rfl⟩ := h
    exact ⟨before, after ++ more, by simp, by simp⟩

theorem append_left (h : IsWithout loader? all rest) (more : List Dependency) :
    IsWithout loader? (more ++ all) (more ++ rest) := by
  cases loader? with
  | none => exact congrArg (more ++ ·) (show all = rest from h)
  | some loader =>
    obtain ⟨before, after, rfl, rfl⟩ := h
    exact ⟨more ++ before, after, by simp, by simp⟩

/-- What is there is the loader's script, or among the others. -/
theorem mem (h : IsWithout loader? all rest) {dependency : Dependency} (hmem : dependency ∈ all) :
    (∃ loader, loader? = some loader ∧ dependency = .require loader) ∨ dependency ∈ rest := by
  cases loader? with
  | none =>
    obtain rfl : all = rest := h
    exact .inr hmem
  | some loader =>
    obtain ⟨before, after, rfl, rfl⟩ := h
    rcases List.mem_append.mp hmem with hbefore | hbehind
    · exact .inr (List.mem_append_left after hbefore)
    · rcases List.mem_cons.mp hbehind with rfl | hafter
      · exact .inl ⟨loader, rfl, rfl⟩
      · exact .inr (List.mem_append_right before hafter)

theorem filterMap_external? (h : IsWithout loader? all rest) :
    all.filterMap Dependency.external? = rest.filterMap Dependency.external? := by
  cases loader? with
  | none =>
    obtain rfl : all = rest := h
    rfl
  | some loader =>
    obtain ⟨before, after, rfl, rfl⟩ := h
    rw [List.filterMap_append, List.filterMap_append, List.filterMap_cons_none rfl]

end IsWithout

/-! ### What a file gains -/

/-- References are among the literals, in their order, and the modules that must be there at once are
those that the calls need. -/
structure Refers (calls : List Call) (uses : List (String × Bool)) (more : List Dependency) :
    Prop where
  needed : more.filterMap Dependency.required? = calls.filterMap Call.need?
  external : (more.filterMap Dependency.external?).Sublist uses
  request : (more.filterMap Dependency.request?).Sublist (uses.map Prod.fst)

theorem Refers.append {calls calls' : List Call} {uses uses' : List (String × Bool)}
    {more more' : List Dependency} (h : Refers calls uses more) (h' : Refers calls' uses' more') :
    Refers (calls ++ calls') (uses ++ uses') (more ++ more') where
  needed := by
    rw [List.filterMap_append, List.filterMap_append]
    rw [h.needed, h'.needed]
  external := by
    rw [List.filterMap_append]
    exact h.external.append h'.external
  request := by
    rw [List.filterMap_append, List.map_append]
    exact h.request.append h'.request

theorem refers_nil : Refers [] [] [] := ⟨rfl, .slnil, .slnil⟩

/-- What was recorded between two states of a file refers to the literals, the loader's script
apart, which is there if the file was marked in between. -/
structure Gains (loader? : Option String) (calls : List Call) (uses : List (String × Bool))
    (state after : FileState) : Prop where
  inTry : after.inTry = state.inTry
  injected : state.loaderInjected = true → after.loaderInjected = true
  dependencies : ∃ more rest, after.dependencies = state.dependencies ++ more ∧
    IsWithout (if !state.loaderInjected && after.loaderInjected then loader? else none) more rest ∧
    Refers calls uses rest

namespace Gains

variable {loader? : Option String} {calls calls' : List Call} {uses uses' : List (String × Bool)}
  {state mid after : FileState}

theorem of_refers {more : List Dependency} (hinTry : after.inTry = state.inTry)
    (hinjected : after.loaderInjected = state.loaderInjected)
    (hdependencies : after.dependencies = state.dependencies ++ more)
    (h : Refers calls uses more) : Gains loader? calls uses state after := by
  refine ⟨hinTry, fun htrue => hinjected.trans htrue, more, more, hdependencies, ?_, h⟩
  rw [hinjected, Bool.not_and_self, if_neg Bool.false_ne_true]
  rfl

theorem trans (h : Gains loader? calls uses state mid) (h' : Gains loader? calls' uses' mid after) :
    Gains loader? (calls ++ calls') (uses ++ uses') state after := by
  obtain ⟨more, rest, hmid, hrest, hrefers⟩ := h.dependencies
  obtain ⟨more', rest', hafter, hrest', hrefers'⟩ := h'.dependencies
  refine ⟨h'.inTry.trans h.inTry, fun htrue => h'.injected (h.injected htrue), more ++ more',
    rest ++ rest', ?_, ?_, hrefers.append hrefers'⟩
  · rw [hafter, hmid, List.append_assoc]
  · -- the mark is put on a file at most once
    cases hstate : state.loaderInjected with
    | true =>
      rw [hstate] at hrest
      rw [h.injected hstate] at hrest'
      obtain rfl : more = rest := hrest
      obtain rfl : more' = rest' := hrest'
      rfl
    | false =>
      rw [hstate] at hrest
      cases hmark : mid.loaderInjected with
      | true =>
        rw [hmark] at hrest hrest'
        obtain rfl : more' = rest' := hrest'
        rw [h'.injected hmark]
        exact hrest.append more'
      | false =>
        rw [hmark] at hrest hrest'
        obtain rfl : more = rest := hrest
        exact hrest'.append_left more

theorem mono (h : Gains loader? calls uses state after) (huses : uses.Sublist uses') :
    Gains loader? calls uses' state after := by
  obtain ⟨more, rest, hmore, hrest, hrefers⟩ := h.dependencies
  exact ⟨h.inTry, h.injected, more, rest, hmore, hrest, hrefers.needed,
    hrefers.external.trans huses, hrefers.request.trans (huses.map Prod.fst)⟩

theorem cons {call : Call} (hneed : call.need? = none)
    (h : Gains loader? calls uses state after) : Gains loader? (call :: calls) uses state after := by
  obtain ⟨more, rest, hmore, hrest, hrefers⟩ := h.dependencies
  refine ⟨h.inTry, h.injected, more, rest, hmore, hrest, ?_, hrefers.external, hrefers.request⟩
  rw [List.filterMap_cons_none hneed]
  exact hrefers.needed

end Gains

/-! ### What lists and ids refer to -/

section Lists

variable {state : FileState} {id : String} {ids : List String} {named : Option String}
  {render : Render} {range : Option Span} {span : Span} {optional : Bool}

theorem refers_item_classify :
    Refers [] [(id, optional)]
      [.item ⟨state.classify id named render, range, span, optional⟩] := by
  unfold FileState.classify
  split
  · exact ⟨rfl, List.nil_sublist _, List.nil_sublist _⟩
  · split
    · exact ⟨rfl, List.nil_sublist _, List.nil_sublist _⟩
    · exact ⟨rfl, .refl _, .refl _⟩

theorem refers_entryDependency? :
    Refers [] [(id, optional)]
      (FileState.entryDependency? span optional (state.classify id named render)).toList := by
  cases hitem : FileState.entryDependency? span optional (state.classify id named render) with
  | none => exact ⟨rfl, List.nil_sublist _, List.nil_sublist _⟩
  | some dependency =>
    have hself : dependency = .item ⟨state.classify id named render, none, span, optional⟩ := by
      unfold FileState.entryDependency? at hitem
      split at hitem
      · simp at hitem
      · exact (Option.some.inj hitem).symm
    rw [hself]
    exact refers_item_classify

theorem refers_listDependencies :
    Refers [] (ids.map fun id => (id, state.inTry))
      (state.listDependencies ids span named render) := by
  have hentries : Refers [] (ids.map fun id => (id, state.inTry))
      ((ids.map fun id => state.classify id named render).filterMap
        (FileState.entryDependency? span state.inTry)) := by
    induction ids with
    | nil => exact refers_nil
    | cons id ids ih =>
      rw [List.map_cons, List.map_cons, List.filterMap_cons]
      have hentry : Refers [] [(id, state.inTry)]
          (FileState.entryDependency? span state.inTry
            (state.classify id named render)).toList := refers_entryDependency?
      have hboth := hentry.append ih
      cases hitem : FileState.entryDependency? span state.inTry
        (state.classify id named render) <;>
      · rw [hitem] at hboth
        exact hboth
  have hlist : Refers [] [] [.array
      ⟨ids.map fun id => state.classify id named render, span, span, state.inTry⟩] :=
    ⟨rfl, .slnil, .slnil⟩
  have hall := hentries.append hlist
  rw [List.append_nil, List.append_nil] at hall
  exact hall

end Lists

end AmdBundle
