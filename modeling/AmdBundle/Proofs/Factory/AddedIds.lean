import AmdBundle.Proofs.Factory.Creation
import AmdBundle.Proofs.Graph.Identifiers

/-!
# AmdBundle.Proofs.Factory.AddedIds — the ids that modules get later

A module keeps the absolute id that it has.  One that has none gets the first that a request adds
(`absMid_createEach`): the id of a request which had to be resolved, and which came to the identifier
of the module (`addedId?`).
-/

namespace AmdBundle

namespace ModuleGraph

variable {graph : ModuleGraph} {idx : Nat} {record : ModuleRecord} {absMid : String}

theorem absMid_get?_addAlias (hget : graph.get? idx = some record) :
    ((graph.addAlias idx absMid).2.get? idx).map ModuleRecord.absMid =
      some (record.absMid.or (if (graph.addAlias idx absMid).1 then some absMid else none)) := by
  by_cases hans : record.answersTo absMid = true
  · rw [addAlias_of_answersTo hget hans]
    simp [hget]
  · rw [get?_addAlias_of_not_answersTo hget hans, if_pos rfl, addAlias_of_not_answersTo hget hans]
    unfold ModuleRecord.withAbsMid
    cases hmid : record.absMid <;> simp

end ModuleGraph

namespace Factory

variable {σ : Type} {factory : Factory σ} {work : Workspace σ} {graph graph' : ModuleGraph}
  {resolved : ResolvedModule} {idx place : Nat} {record : ModuleRecord}

/-- The id that the module at a place is reached under, if it does not answer to it yet. -/
def broughtId? (idx : Nat) (resolved : ResolvedModule) (graph : ModuleGraph) : Option String :=
  if graph.byIdentifier? resolved.request = some idx then
    resolved.absMid.filter fun absMid => (graph.addAlias idx absMid).1
  else none

/-- The id that a request adds to the module at a place: it has to be resolved, as its own id leads
nowhere, and brings its id to the module whose identifier it comes to. -/
def addedId? (factory : Factory σ) (idx : Nat) (data : ResolveData) (work : Workspace σ) :
    Option String :=
  match beforeResolve factory.plugins data with
  | .error _ => none
  | .ok final =>
    match final.absMid.bind work.graph.byAbsMid? with
    | some _ => none
    | none =>
      match (factory.resolver final work.resolver).1 with
      | .error _ => none
      | .ok resolved => broughtId? idx resolved work.graph

/-- The ids that requests one after the other add to the module at a place. -/
def addedIds (factory : Factory σ) (idx : Nat) : List ResolveData → Workspace σ → List String
  | [], _ => []
  | data :: rest, work =>
    (factory.addedId? idx data work).toList ++
      addedIds factory idx rest (factory.createFrom data work).2

theorem absMid_get?_reached (hget : graph.get? idx = some record) (absMid : Option String) :
    ((Factory.reached graph idx absMid).get? idx).map ModuleRecord.absMid =
      some (record.absMid.or (absMid.filter fun id => (graph.addAlias idx id).1)) := by
  cases absMid with
  | none => simp [Factory.reached, hget]
  | some id =>
    rw [Factory.reached, ModuleGraph.absMid_get?_addAlias hget]
    rfl

theorem get?_reached_of_ne (hne : place ≠ idx) (absMid : Option String) :
    (Factory.reached graph place absMid).get? idx = graph.get? idx := by
  cases absMid with
  | none => rfl
  | some absMid => exact (ModuleGraph.get?_addAlias absMid idx).trans (if_neg hne)

/-- Placing what a request was resolved to leaves a module its id; one that has none gets the one
that is brought. -/
theorem absMid_of_place (hget : graph.get? idx = some record)
    (h : factory.place resolved graph = .ok (place, graph')) :
    (graph'.get? idx).map ModuleRecord.absMid =
      some (record.absMid.or (broughtId? idx resolved graph)) := by
  unfold broughtId?
  rcases place_eq_ok h with ⟨hfound, rfl⟩ | ⟨hnew, made, -, -, rfl⟩
  · by_cases hidx : place = idx
    · subst hidx
      rw [if_pos hfound]
      exact absMid_get?_reached hget resolved.absMid
    · have hother : graph.byIdentifier? resolved.request ≠ some idx := by
        rw [hfound]
        exact fun heq => hidx (Option.some.inj heq)
      rw [if_neg hother, get?_reached_of_ne hidx, hget, Option.map_some, Option.or_none]
  · have hother : graph.byIdentifier? resolved.request ≠ some idx := by simp [hnew]
    rw [if_neg hother, ModuleGraph.get?_add,
      if_neg (Nat.ne_of_lt (ModuleGraph.lt_size_of_get? hget)), hget, Option.map_some,
      Option.or_none]

theorem broughtId?_of_place_eq_error {error : Error}
    (h : factory.place resolved graph = .error error) : broughtId? idx resolved graph = none := by
  unfold Factory.place at h
  split at h
  · simp at h
  · rename_i hnew
    exact if_neg (by simp [hnew])

theorem absMid_createFrom (hget : work.graph.get? idx = some record) (data : ResolveData) :
    ((factory.createFrom data work).2.graph.get? idx).map ModuleRecord.absMid =
      some (record.absMid.or (factory.addedId? idx data work)) := by
  have hold : (work.graph.get? idx).map ModuleRecord.absMid = some (record.absMid.or none) := by
    rw [hget, Option.map_some, Option.or_none]
  rw [createFrom_eq]
  unfold addedId?
  cases beforeResolve factory.plugins data with
  | error error => exact hold
  | ok final =>
    dsimp only
    cases final.absMid.bind work.graph.byAbsMid? with
    | some known => exact hold
    | none =>
      dsimp only
      rcases factory.resolver final work.resolver with ⟨error | resolved, state⟩
      · exact hold
      · dsimp only
        cases hplace : factory.place resolved work.graph with
        | error error =>
          rw [broughtId?_of_place_eq_error hplace]
          exact hold
        | ok placed => exact absMid_of_place hget hplace

/-- After any creations a module has the id that it had, or else the first one added. -/
theorem absMid_createEach (hget : work.graph.get? idx = some record)
    (requests : List ResolveData) :
    ((factory.createEach requests work).2.graph.get? idx).map ModuleRecord.absMid =
      some (record.absMid.or (factory.addedIds idx requests work).head?) := by
  induction requests generalizing work record with
  | nil => simp [addedIds, hget]
  | cons data rest ih =>
    obtain ⟨after, hafter, hmid⟩ := Option.map_eq_some_iff.mp (absMid_createFrom hget data)
    rw [createEach_cons, addedIds]
    dsimp only
    rw [ih hafter, hmid, Option.or_assoc, List.head?_append, Option.head?_toList]

end Factory
end AmdBundle
