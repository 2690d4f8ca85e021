import AmdBundle.Dojo.Adapter
import AmdBundle.Loader.Configured
import AmdBundle.Proofs.Factory.Creation

/-!
# AmdBundle.Proofs.Dojo.Identity — one module for each absolute id

Runs of a factory whose only plugin is the adapter, over any resolver and from a graph without
modules; creations may fail in between.  In the end no identifier and no absolute id has two modules
(`pipeline_consistent`), and creations under one absolute id give one module
(`pipeline_samePlace`).

Each creation keeps the graph consistent (`consistent_of_created`) and lets the id of its request
lead to its module (`byAbsMid?_of_created`); the rest is said by the lemmas on runs.
-/

namespace AmdBundle

/-- A request as its issuer makes it. -/
structure PlainRequest where
  context : String
  request : String
  dependencies : List FactoryDependency

namespace PlainRequest

def data (request : PlainRequest) : ResolveData :=
  .new request.context request.request request.dependencies

end PlainRequest

namespace Dojo

open Factory

variable {σ : Type} {loader : Loader} {noModule : String} {inner : Resolver σ}

/-- The factory that has the adapter and no other plugin. -/
def pipeline (loader : Loader) (noModule : String) (inner : Resolver σ) : Factory σ :=
  (Factory.new inner).addPlugin (adapter loader noModule)

/-- The absolute id that a request has when the adapter is done with it. -/
def assignedId (loader : Loader) (noModule : String) (data : ResolveData) : Option String :=
  match beforeResolve loader noModule data with
  | .ok data => data.absMid
  | .error _ => none

/-! ### What the adapter does to a request and to what it is resolved to -/

theorem plugins_pipeline :
    (pipeline loader noModule inner).plugins = [adapter loader noModule] := rfl

theorem beforeResolve_pipeline (data : ResolveData) :
    Factory.beforeResolve (pipeline loader noModule inner).plugins data =
      beforeResolve loader noModule data := by
  rw [plugins_pipeline, Factory.beforeResolve]
  show (match beforeResolve loader noModule data with
    | .ok data => Except.ok data
    | .error error => .error error) = _
  cases beforeResolve loader noModule data <;> rfl

theorem absMidAliases_readdress (data : ResolveData) (absMid : String) :
    (readdress data absMid).absMidAliases = [] := rfl

theorem absMidAliases_of_beforeResolve {data final : ResolveData}
    (h : beforeResolve loader noModule data = .ok final) (hdata : data.absMidAliases = []) :
    final.absMidAliases = [] := by
  unfold beforeResolve at h
  split at h
  · simp at h
  · obtain rfl := Except.ok.inj h
    exact hdata
  · split at h
    · obtain rfl := Except.ok.inj h
      exact hdata
    · split at h
      · obtain rfl := Except.ok.inj h
        exact hdata
      · obtain rfl := Except.ok.inj h
        exact absMidAliases_readdress data _

theorem ids_of_resolver {data : ResolveData} {state state' : σ} {resolved : ResolvedModule}
    (h : (pipeline loader noModule inner).resolver data state = (.ok resolved, state')) :
    resolved.absMid = data.absMid ∧ resolved.absMidAliases = data.absMidAliases := by
  change wrapResolver inner data state = (.ok resolved, state') at h
  unfold wrapResolver at h
  split at h
  · simp only [Prod.mk.injEq, Except.ok.injEq] at h
    obtain ⟨rfl, -⟩ := h
    exact ⟨rfl, rfl⟩
  · simp at h

theorem ids_of_makeRecord {resolved : ResolvedModule} {record : ModuleRecord}
    (h : makeRecord (pipeline loader noModule inner).plugins resolved = .ok record)
    (haliases : resolved.absMidAliases = []) :
    record.request = resolved.request ∧ record.absMid = resolved.absMid ∧
      record.absMidAliases = [] := by
  cases hmid : resolved.absMid with
  | none =>
    simp only [plugins_pipeline, makeRecord, adapter, createModule, hmid, Except.ok.injEq] at h
    subst h
    exact ⟨rfl, rfl, rfl⟩
  | some absMid =>
    simp only [plugins_pipeline, makeRecord, adapter, createModule, hmid, Except.ok.injEq] at h
    subst h
    exact ⟨rfl, rfl, haliases⟩

/-! ### One creation -/

section Step

variable {final : ResolveData} {graph graph' : ModuleGraph} {idx : Nat}

theorem consistent_of_created
    (h : (pipeline loader noModule inner).Created final graph idx graph')
    (haliases : final.absMidAliases = []) (hgraph : graph.Consistent) : graph'.Consistent := by
  cases h with
  | known => exact hgraph
  | @reached _ _ resolved _ hmid hresolved hfound =>
    have hids := (ids_of_resolver hresolved).1
    cases hres : resolved.absMid with
    | none => exact hgraph
    | some absMid => exact hgraph.addAlias (hmid absMid (hids ▸ hres)) idx
  | @made _ _ resolved record hmid hresolved hnew hrecord =>
    obtain ⟨hres, hresAliases⟩ := ids_of_resolver hresolved
    obtain ⟨hrequest, hown, hnone⟩ := ids_of_makeRecord hrecord (hresAliases.trans haliases)
    refine hgraph.add (ModuleRecord.wellNamed_of_no_aliases hnone) (hrequest ▸ hnew) ?_
    intro absMid hmem
    rw [ModuleRecord.absMids, hnone, List.append_nil, Option.mem_toList, hown, hres] at hmem
    exact hmid absMid hmem

theorem byAbsMid?_of_created {absMid : String}
    (h : (pipeline loader noModule inner).Created final graph idx graph')
    (hfinal : final.absMid = some absMid) (haliases : final.absMidAliases = [])
    (hgraph : graph.Consistent) : graph'.byAbsMid? absMid = some idx := by
  cases h with
  | known hmid hfound =>
    obtain rfl := Option.some.inj (hfinal.symm.trans hmid)
    exact hfound
  | @reached _ _ resolved _ hmid hresolved hfound =>
    obtain ⟨record, hget, -⟩ := (hgraph.identifier _ _).mp hfound
    rw [(ids_of_resolver hresolved).1, hfinal]
    exact hgraph.byAbsMid?_addAlias_self (hmid absMid hfinal) hget
  | @made _ _ resolved record hmid hresolved hnew hrecord =>
    obtain ⟨hres, hresAliases⟩ := ids_of_resolver hresolved
    obtain ⟨-, hown, -⟩ := ids_of_makeRecord hrecord (hresAliases.trans haliases)
    have hmem : absMid ∈ record.absMids := by
      simp [ModuleRecord.absMids, hown, hres, hfinal]
    rw [ModuleGraph.byAbsMid?_add, hmid absMid hfinal, if_pos hmem, Option.none_or]

theorem consistent_createFrom (request : PlainRequest) {work : Workspace σ}
    (hgraph : work.graph.Consistent) :
    ((pipeline loader noModule inner).createFrom request.data work).2.graph.Consistent := by
  refine createFrom_keeps hgraph fun final idx graph hbefore hstep => ?_
  rw [beforeResolve_pipeline] at hbefore
  exact consistent_of_created hstep (absMidAliases_of_beforeResolve hbefore rfl) hgraph

end Step

/-! ### Runs -/

section Run

variable (loader noModule inner) (start : σ) (requests : List PlainRequest)

/-- The creations for requests, one after the other, from a graph without modules: how each ended,
and the workspace in the end. -/
def runPipeline : List (Except Error Nat) × Workspace σ :=
  (pipeline loader noModule inner).createEach (requests.map PlainRequest.data) ⟨.empty, start⟩

variable {loader noModule inner start requests}

theorem consistent_runPipeline :
    (runPipeline loader noModule inner start requests).2.graph.Consistent := by
  refine createEach_keeps ?_ ModuleGraph.consistent_empty
  intro data hdata work hwork
  obtain ⟨request, -, rfl⟩ := List.mem_map.mp hdata
  exact consistent_createFrom request hwork

theorem createEach_take_map (i : Nat) :
    ((pipeline loader noModule inner).createEach ((requests.map PlainRequest.data).take i)
        ⟨.empty, start⟩) = runPipeline loader noModule inner start (requests.take i) := by
  rw [← List.map_take]
  rfl

theorem getElem?_runPipeline {i : Nat} {request : PlainRequest} (h : requests[i]? = some request) :
    (runPipeline loader noModule inner start requests).1[i]? =
      some ((pipeline loader noModule inner).createFrom request.data
        (runPipeline loader noModule inner start (requests.take i)).2).1 := by
  rw [runPipeline, getElem?_createEach, createEach_take_map]
  simp [h]

theorem byAbsMid?_after {i : Nat} {request : PlainRequest} {absMid : String} {idx : Nat}
    (hi : requests[i]? = some request)
    (hid : assignedId loader noModule request.data = some absMid)
    (hok : (runPipeline loader noModule inner start requests).1[i]? = some (.ok idx)) :
    (runPipeline loader noModule inner start (requests.take (i + 1))).2.graph.byAbsMid? absMid =
      some idx := by
  rw [getElem?_runPipeline hi, Option.some.injEq] at hok
  obtain ⟨final, hbefore, hstep⟩ := created_of_ok (Prod.ext hok rfl)
  rw [beforeResolve_pipeline] at hbefore
  have hfinal : final.absMid = some absMid := by
    rw [assignedId, hbefore] at hid
    exact hid
  have hdata : (requests.map PlainRequest.data)[i]? = some request.data := by simp [hi]
  rw [← createEach_take_map, createEach_take_succ _ _ hdata, createEach_take_map]
  exact byAbsMid?_of_created hstep hfinal (absMidAliases_of_beforeResolve hbefore rfl)
    consistent_runPipeline

/-- A request whose absolute id a request before it had, successfully, gets the same module. -/
theorem outcome_of_earlier {i j : Nat} (hij : i ≤ j) {a b : PlainRequest} {absMid : String}
    {idx : Nat} (ha : requests[i]? = some a) (hb : requests[j]? = some b)
    (hida : assignedId loader noModule a.data = some absMid)
    (hidb : assignedId loader noModule b.data = some absMid)
    (hok : (runPipeline loader noModule inner start requests).1[i]? = some (.ok idx)) :
    (runPipeline loader noModule inner start requests).1[j]? = some (.ok idx) := by
  rcases Nat.eq_or_lt_of_le hij with rfl | hlt
  · exact hok
  have hfound := byAbsMid?_after ha hida hok
  rw [← createEach_take_map] at hfound
  have hkept := byAbsMid?_createEach_take (Nat.succ_le_of_lt hlt) hfound
  rw [createEach_take_map] at hkept
  cases hbefore : beforeResolve loader noModule b.data with
  | error error => simp [assignedId, hbefore] at hidb
  | ok final =>
    have hfinal : final.absMid = some absMid := by
      rw [assignedId, hbefore] at hidb
      exact hidb
    rw [getElem?_runPipeline hb,
      createFrom_of_known ((beforeResolve_pipeline _).trans hbefore) hfinal hkept]

/-- **Representation.**  After any creations an identifier leads to the one module that has it, an
absolute id to the one module that answers to it, and every module lists its ids once: its aliases
are distinct and without its canonical id, and there are none where there is no canonical id. -/
theorem pipeline_consistent (loader : Loader) (noModule : String) (inner : Resolver σ) (start : σ)
    (requests : List PlainRequest) :
    let graph := (runPipeline loader noModule inner start requests).2.graph
    (∀ request idx, graph.byIdentifier? request = some idx ↔
        ∃ record, graph.get? idx = some record ∧ record.request = request) ∧
      (∀ absMid idx, graph.byAbsMid? absMid = some idx ↔
        ∃ record, graph.get? idx = some record ∧ record.answersTo absMid = true) ∧
      (∀ idx record, graph.get? idx = some record →
        record.absMidAliases.Nodup ∧
          (∀ absMid, record.absMid = some absMid → absMid ∉ record.absMidAliases) ∧
          (record.absMid = none → record.absMidAliases = [])) ∧
      ∀ i j a b, graph.get? i = some a → graph.get? j = some b →
        (a.request = b.request ∨
          ∃ absMid, a.answersTo absMid = true ∧ b.answersTo absMid = true) → i = j := by
  intro graph
  have h : graph.Consistent := consistent_runPipeline
  refine ⟨h.identifier, h.absMid, ?_, ?_⟩
  · intro idx record hget
    have hnamed := h.wellNamed idx record hget
    exact ⟨hnamed.nodup, hnamed.own_not_alias, hnamed.own_first⟩
  · rintro i j a b ha hb (heq | ⟨absMid, hai, hbj⟩)
    · exact h.idx_eq_of_request ha hb heq
    · exact h.idx_eq_of_answersTo ha hb hai hbj

/-- **Identity.**  Two creations of a run that succeed under one absolute id give one module; and
once a creation under an id has given a module, every later one under it gives that module, whatever
came in between. -/
theorem pipeline_samePlace {i j : Nat} {a b : PlainRequest} {absMid : String} {idx : Nat}
    (ha : requests[i]? = some a) (hb : requests[j]? = some b)
    (hida : assignedId loader noModule a.data = some absMid)
    (hidb : assignedId loader noModule b.data = some absMid)
    (hok : (runPipeline loader noModule inner start requests).1[i]? = some (.ok idx)) :
    (∀ other, (runPipeline loader noModule inner start requests).1[j]? = some (.ok other) →
        other = idx) ∧
      (i < j → (runPipeline loader noModule inner start requests).1[j]? = some (.ok idx)) := by
  refine ⟨fun other hother => ?_, fun hlt =>
    outcome_of_earlier (Nat.le_of_lt hlt) ha hb hida hidb hok⟩
  rcases Nat.le_total i j with hij | hji
  · have hsame := outcome_of_earlier hij ha hb hida hidb hok
    rw [hother, Option.some.injEq, Except.ok.injEq] at hsame
    exact hsame
  · have hsame := outcome_of_earlier hji hb ha hidb hida hother
    rw [hok, Option.some.injEq, Except.ok.injEq] at hsame
    exact hsame.symm

end Run

/-! ### One id from two directories -/

section TwoDirectories

/-- The rule for ids that an empty configuration gives. -/
def plainLoader : Loader := ConfiguredLoader.toLoader ⟨{}, []⟩

/-- A resolver that looks at nothing but the directory. -/
def byDirectory : Resolver Unit := fun data state =>
  (.ok { request := data.context, resource := "" }, state)

/-- One module as two others name it, and a request that fails in between. -/
def twoDirectories : List PlainRequest :=
  [⟨"/p", "./a", [.amdItem ⟨some "p/x", "/p/x.js"⟩]⟩, ⟨"/p", "?absMid=%", []⟩,
    ⟨"/q", "../p/a", [.amdItem ⟨some "q/y", "/q/y.js"⟩]⟩]

/-- The second directory gets the module of the first, although the resolver would say otherwise. -/
theorem pipeline_samePlace_twoDirectories :
    (runPipeline plainLoader "/no.js" byDirectory () twoDirectories).1[0]? = some (.ok 0) ∧
      (runPipeline plainLoader "/no.js" byDirectory () twoDirectories).1[2]? = some (.ok 0) := by
  have hok : (runPipeline plainLoader "/no.js" byDirectory () twoDirectories).1[0]? =
      some (.ok 0) := by decide +kernel
  have hfirst : assignedId plainLoader "/no.js" (twoDirectories[0]).data = some "p/a" := by
    decide +kernel
  have hlast : assignedId plainLoader "/no.js" (twoDirectories[2]).data = some "p/a" := by
    decide +kernel
  exact ⟨hok, (pipeline_samePlace rfl rfl hfirst hlast hok).2 (by decide)⟩

end TwoDirectories

end Dojo
end AmdBundle
