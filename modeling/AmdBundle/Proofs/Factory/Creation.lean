import AmdBundle.Factory
import AmdBundle.Proofs.Graph.Consistency

/-!
# AmdBundle.Proofs.Factory.Creation — what creating modules does to the graph

`Created` lists the three ways in which a creation succeeds: the absolute id of the request is
known, the identifier that it resolves to is known, or a module is added.  `created_of_ok` says that
there is no other way, and `graph_eq_of_error` that a creation which fails leaves the graph alone.

`createEach` creates modules for one request after the other and goes on after failures; a request
in the list ends as it would from the workspace that those before it leave (`getElem?_createEach`),
and what every creation keeps holds in the end (`createEach_keeps`).
-/

namespace AmdBundle
namespace Factory

variable {σ : Type} {factory : Factory σ}

/-- A creation that succeeds for a request as the plugins left it: the place of its module, and the
graph afterwards. -/
inductive Created (factory : Factory σ) (data : ResolveData) (graph : ModuleGraph) :
    Nat → ModuleGraph → Prop
  /-- The absolute id leads to the module. -/
  | known {absMid : String} {idx : Nat} (hmid : data.absMid = some absMid)
      (hfound : graph.byAbsMid? absMid = some idx) : Created factory data graph idx graph
  /-- The identifier leads to the module, which may get one more id. -/
  | reached {state state' : σ} {resolved : ResolvedModule} {idx : Nat}
      (hmid : ∀ absMid, data.absMid = some absMid → graph.byAbsMid? absMid = none)
      (hresolved : factory.resolver data state = (.ok resolved, state'))
      (hfound : graph.byIdentifier? resolved.request = some idx) :
      Created factory data graph idx (Factory.reached graph idx resolved.absMid)
  /-- The module is made. -/
  | made {state state' : σ} {resolved : ResolvedModule} {record : ModuleRecord}
      (hmid : ∀ absMid, data.absMid = some absMid → graph.byAbsMid? absMid = none)
      (hresolved : factory.resolver data state = (.ok resolved, state'))
      (hnew : graph.byIdentifier? resolved.request = none)
      (hrecord : makeRecord factory.plugins resolved = .ok record) :
      Created factory data graph graph.size (graph.add record).2

section Step

variable {data final : ResolveData} {work work' : Workspace σ} {idx : Nat}

theorem createFrom_eq (factory : Factory σ) (data : ResolveData) (work : Workspace σ) :
    factory.createFrom data work =
      match beforeResolve factory.plugins data with
      | .error error => (.error (.plugin error), work)
      | .ok data =>
        match data.absMid.bind work.graph.byAbsMid? with
        | some idx => (.ok idx, work)
        | none =>
          match factory.resolver data work.resolver with
          | (.error error, resolver) => (.error (.resolve error), { work with resolver })
          | (.ok resolved, resolver) =>
            match factory.place resolved work.graph with
            | .error error => (.error error, { work with resolver })
            | .ok (idx, graph) => (.ok idx, ⟨graph, resolver⟩) := rfl

theorem resolved_of_ok (h : factory.createFrom data work = (.ok idx, work')) :
    ∃ final, beforeResolve factory.plugins data = .ok final ∧
      ((∃ absMid, final.absMid = some absMid ∧ work.graph.byAbsMid? absMid = some idx ∧
          work' = work) ∨
        (∀ absMid, final.absMid = some absMid → work.graph.byAbsMid? absMid = none) ∧
          ∃ resolved, factory.resolver final work.resolver = (.ok resolved, work'.resolver) ∧
            factory.place resolved work.graph = .ok (idx, work'.graph)) := by
  rw [createFrom_eq] at h
  cases hbefore : beforeResolve factory.plugins data with
  | error error => simp [hbefore] at h
  | ok final =>
    refine ⟨final, rfl, ?_⟩
    simp only [hbefore] at h
    cases hmid : final.absMid.bind work.graph.byAbsMid? with
    | some found =>
      simp only [hmid, Prod.mk.injEq, Except.ok.injEq] at h
      obtain ⟨rfl, rfl⟩ := h
      obtain ⟨absMid, hsome, hfound⟩ := Option.bind_eq_some_iff.mp hmid
      exact .inl ⟨absMid, hsome, hfound, rfl⟩
    | none =>
      simp only [hmid] at h
      rcases hresolved : factory.resolver final work.resolver with ⟨error | resolved, state⟩
      · simp [hresolved] at h
      · simp only [hresolved] at h
        cases hplace : factory.place resolved work.graph with
        | error error => simp [hplace] at h
        | ok placed =>
          simp only [hplace, Prod.mk.injEq, Except.ok.injEq] at h
          obtain ⟨rfl, rfl⟩ := h
          exact .inr ⟨Option.bind_eq_none_iff.mp hmid, resolved, rfl, hplace⟩

theorem place_eq_ok {resolved : ResolvedModule} {graph graph' : ModuleGraph}
    (h : factory.place resolved graph = .ok (idx, graph')) :
    graph.byIdentifier? resolved.request = some idx ∧
        graph' = Factory.reached graph idx resolved.absMid ∨
      graph.byIdentifier? resolved.request = none ∧
        ∃ record, makeRecord factory.plugins resolved = .ok record ∧ idx = graph.size ∧
          graph' = (graph.add record).2 := by
  unfold place at h
  split at h
  · rename_i found hfound
    obtain ⟨rfl, rfl⟩ := Prod.mk.inj (Except.ok.inj h)
    exact .inl ⟨hfound, rfl⟩
  · rename_i hnone
    split at h
    · simp at h
    · rename_i record hrecord
      obtain ⟨rfl, rfl⟩ := Prod.mk.inj (Except.ok.inj h)
      exact .inr ⟨hnone, record, hrecord, rfl, rfl⟩

theorem created_of_ok (h : factory.createFrom data work = (.ok idx, work')) :
    ∃ final, beforeResolve factory.plugins data = .ok final ∧
      factory.Created final work.graph idx work'.graph := by
  obtain ⟨final, hbefore, hcases⟩ := resolved_of_ok h
  refine ⟨final, hbefore, ?_⟩
  rcases hcases with ⟨absMid, hmid, hfound, rfl⟩ | ⟨hmid, resolved, hresolved, hplace⟩
  · exact .known hmid hfound
  · rcases place_eq_ok hplace with ⟨hfound, hgraph⟩ | ⟨hnew, record, hrecord, rfl, hgraph⟩
    · rw [hgraph]
      exact .reached hmid hresolved hfound
    · rw [hgraph]
      exact .made hmid hresolved hnew hrecord

theorem graph_eq_of_error {error : Error}
    (h : factory.createFrom data work = (.error error, work')) :
    work'.graph = work.graph := by
  rw [createFrom_eq] at h
  split at h
  · simp only [Prod.mk.injEq] at h
    rw [← h.2]
  · split at h
    · simp at h
    · split at h
      · simp only [Prod.mk.injEq] at h
        rw [← h.2]
      · split at h
        · simp only [Prod.mk.injEq] at h
          rw [← h.2]
        · simp at h

theorem createFrom_of_known {absMid : String}
    (hbefore : beforeResolve factory.plugins data = .ok final)
    (hmid : final.absMid = some absMid) (hfound : work.graph.byAbsMid? absMid = some idx) :
    factory.createFrom data work = (.ok idx, work) := by
  simp [createFrom_eq, hbefore, hmid, hfound]

/-- What holds of a graph and of whatever a successful creation makes of it holds after any
creation. -/
theorem createFrom_keeps {P : ModuleGraph → Prop} (hwork : P work.graph)
    (hcreated : ∀ final idx graph, beforeResolve factory.plugins data = .ok final →
      factory.Created final work.graph idx graph → P graph) :
    P (factory.createFrom data work).2.graph := by
  rcases hrun : factory.createFrom data work with ⟨result, after⟩
  cases result with
  | error error =>
    rw [graph_eq_of_error hrun]
    exact hwork
  | ok idx =>
    obtain ⟨final, hbefore, hstep⟩ := created_of_ok hrun
    exact hcreated final idx after.graph hbefore hstep

theorem Created.byAbsMid?_of_some {graph graph' : ModuleGraph} {absMid : String} {place : Nat}
    (h : factory.Created final graph idx graph') (hfound : graph.byAbsMid? absMid = some place) :
    graph'.byAbsMid? absMid = some place := by
  cases h with
  | known => exact hfound
  | @reached _ _ resolved =>
    cases hmid : resolved.absMid with
    | none => exact hfound
    | some id => exact ModuleGraph.byAbsMid?_addAlias_of_some hfound idx id
  | made => exact ModuleGraph.byAbsMid?_add_of_some hfound _

theorem byAbsMid?_createFrom_of_some {absMid : String} (data : ResolveData)
    (hfound : work.graph.byAbsMid? absMid = some idx) :
    (factory.createFrom data work).2.graph.byAbsMid? absMid = some idx :=
  createFrom_keeps hfound fun _ _ _ _ hstep => hstep.byAbsMid?_of_some hfound

end Step

/-- Creates modules for one request after the other, whether or not those before failed: how each
ended, and the workspace in the end. -/
def createEach (factory : Factory σ) :
    List ResolveData → Workspace σ → List (Except Error Nat) × Workspace σ
  | [], work => ([], work)
  | data :: rest, work =>
    let (result, work) := factory.createFrom data work
    let (results, work) := createEach factory rest work
    (result :: results, work)

section Run

variable (factory) (work : Workspace σ)

@[simp] theorem createEach_nil : factory.createEach [] work = ([], work) := rfl

theorem createEach_cons (data : ResolveData) (rest : List ResolveData) :
    factory.createEach (data :: rest) work =
      ((factory.createFrom data work).1 ::
          (factory.createEach rest (factory.createFrom data work).2).1,
        (factory.createEach rest (factory.createFrom data work).2).2) := rfl

theorem createEach_append (first second : List ResolveData) :
    factory.createEach (first ++ second) work =
      ((factory.createEach first work).1 ++
          (factory.createEach second (factory.createEach first work).2).1,
        (factory.createEach second (factory.createEach first work).2).2) := by
  induction first generalizing work with
  | nil => simp
  | cons data first ih => simp [createEach_cons, ih]

theorem getElem?_createEach (requests : List ResolveData) (i : Nat) :
    (factory.createEach requests work).1[i]? =
      requests[i]?.map fun data =>
        (factory.createFrom data (factory.createEach (requests.take i) work).2).1 := by
  induction requests generalizing work i with
  | nil => simp
  | cons data rest ih =>
    cases i with
    | zero => simp [createEach_cons]
    | succ i => simp [createEach_cons, ih]

theorem createEach_take_succ {requests : List ResolveData} {i : Nat} {data : ResolveData}
    (h : requests[i]? = some data) :
    (factory.createEach (requests.take (i + 1)) work).2 =
      (factory.createFrom data (factory.createEach (requests.take i) work).2).2 := by
  rw [List.take_add_one, h, Option.toList_some, createEach_append]
  rfl

variable {factory work}

theorem createEach_keeps {P : ModuleGraph → Prop} {requests : List ResolveData}
    (hstep : ∀ data ∈ requests, ∀ work : Workspace σ, P work.graph →
      P (factory.createFrom data work).2.graph)
    (hwork : P work.graph) : P (factory.createEach requests work).2.graph := by
  induction requests generalizing work with
  | nil => exact hwork
  | cons data rest ih =>
    rw [createEach_cons]
    refine ih (fun other hother => hstep other (List.mem_cons_of_mem _ hother)) ?_
    exact hstep data List.mem_cons_self work hwork

theorem byAbsMid?_createEach_take {requests : List ResolveData} {absMid : String} {idx i j : Nat}
    (hij : i ≤ j)
    (hfound : (factory.createEach (requests.take i) work).2.graph.byAbsMid? absMid = some idx) :
    (factory.createEach (requests.take j) work).2.graph.byAbsMid? absMid = some idx := by
  obtain ⟨k, rfl⟩ := Nat.exists_eq_add_of_le hij
  rw [List.take_add, createEach_append]
  exact createEach_keeps (P := fun graph => graph.byAbsMid? absMid = some idx)
    (fun data _ _ h => byAbsMid?_createFrom_of_some data h) hfound

end Run

end Factory
end AmdBundle
