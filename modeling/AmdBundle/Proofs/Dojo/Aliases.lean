import AmdBundle.FileSystem.Tree
import AmdBundle.Proofs.Dojo.Identity
import AmdBundle.Proofs.Graph.Updates
import AmdBundle.Resolver.Files

/-!
# AmdBundle.Proofs.Dojo.Aliases — what becomes of the aliases of a request

Plugins behind the adapter may give a request aliases, besides its absolute id.  A module that is
made for the request gets all of them; one that is found gets at most the absolute id
(`answersAt_created`, and for runs `aliases_createEach`).  All this needs of a graph is that its
tables are right (`Indexed`), which every creation keeps.
-/

namespace AmdBundle

namespace ModuleGraph

variable {graph : ModuleGraph} {idx : Nat} {record : ModuleRecord} {absMid id : String}

/-- There is a module at the place, and it answers to the id. -/
def AnswersAt (graph : ModuleGraph) (idx : Nat) (absMid : String) : Prop :=
  ∃ record, graph.get? idx = some record ∧ record.answersTo absMid = true

instance (graph : ModuleGraph) (idx : Nat) (absMid : String) :
    Decidable (graph.AnswersAt idx absMid) :=
  decidable_of_iff ((graph.get? idx).any (·.answersTo absMid) = true)
    (by simp [AnswersAt, Option.any_eq_true])

theorem not_answersAt_size : ¬ graph.AnswersAt graph.size absMid := by
  rintro ⟨record, hget, -⟩
  rw [get?_size] at hget
  simp at hget

theorem answersAt_add :
    (graph.add record).2.AnswersAt graph.size absMid ↔ record.answersTo absMid = true := by
  rw [AnswersAt, get?_add, if_pos rfl]
  simp

theorem answersAt_addAlias (hget : graph.get? idx = some record) :
    (graph.addAlias idx absMid).2.AnswersAt idx id ↔ graph.AnswersAt idx id ∨ absMid = id := by
  rw [AnswersAt, AnswersAt, get?_addAlias, if_pos rfl, hget, Option.map_some]
  simp [ModuleRecord.answersTo_reachedUnder]

theorem Indexed.get?_of_byIdentifier? (h : graph.Indexed) {request : String}
    (hfound : graph.byIdentifier? request = some idx) : ∃ record, graph.get? idx = some record := by
  have hmem : graph.identifierAt? idx = some request := ((h.last request idx).mp hfound).1
  obtain ⟨record, hget, -⟩ := Option.map_eq_some_iff.mp hmem
  exact ⟨record, hget⟩

end ModuleGraph

namespace Factory

variable {σ : Type} {factory : Factory σ} {graph graph' : ModuleGraph} {data : ResolveData}
  {work : Workspace σ} {idx : Nat}

/-! ### Right tables -/

theorem Created.indexed (h : factory.Created data graph idx graph') (hgraph : graph.Indexed) :
    graph'.Indexed := by
  cases h with
  | known => exact hgraph
  | @reached _ _ resolved =>
    cases hmid : resolved.absMid with
    | none => exact hgraph
    | some absMid => exact hgraph.addAlias idx absMid
  | made => exact hgraph.add _

theorem indexed_createFrom (data : ResolveData) (hgraph : work.graph.Indexed) :
    (factory.createFrom data work).2.graph.Indexed :=
  createFrom_keeps hgraph fun _ _ _ _ hstep => hstep.indexed hgraph

/-- The graph after the first `n` requests of a run, which begins without modules. -/
def graphAfter (factory : Factory σ) (start : σ) (requests : List ResolveData) (n : Nat) :
    ModuleGraph :=
  (factory.createEach (requests.take n) ⟨.empty, start⟩).2.graph

theorem indexed_graphAfter (start : σ) (requests : List ResolveData) (n : Nat) :
    (factory.graphAfter start requests n).Indexed :=
  createEach_keeps (fun data _ _ hwork => indexed_createFrom data hwork) ModuleGraph.indexed_empty

theorem created_graphAfter {start : σ} {requests : List ResolveData} {i : Nat} {final : ResolveData}
    (hdata : requests[i]? = some data) (hfinal : beforeResolve factory.plugins data = .ok final)
    (hok : (factory.createEach requests ⟨.empty, start⟩).1[i]? = some (.ok idx)) :
    factory.Created final (factory.graphAfter start requests i) idx
      (factory.graphAfter start requests (i + 1)) := by
  rw [getElem?_createEach, hdata, Option.map_some, Option.some.injEq] at hok
  obtain ⟨other, hother, hstep⟩ := created_of_ok (Prod.ext hok rfl)
  obtain rfl : final = other := Except.ok.inj (hfinal.symm.trans hother)
  rw [graphAfter, graphAfter, createEach_take_succ _ _ hdata]
  exact hstep

/-! ### More plugins -/

def withPlugins (factory : Factory σ) (plugins : List (FactoryPlugin σ)) : Factory σ :=
  plugins.foldl addPlugin factory

theorem plugins_withPlugins (plugins : List (FactoryPlugin σ)) :
    (factory.withPlugins plugins).plugins = factory.plugins ++ plugins := by
  induction plugins generalizing factory with
  | nil => exact (List.append_nil _).symm
  | cons plugin plugins ih =>
    show ((factory.addPlugin plugin).withPlugins plugins).plugins = _
    rw [ih, addPlugin, List.append_assoc, List.singleton_append]

theorem resolver_withPlugins {plugins : List (FactoryPlugin σ)}
    (h : ∀ plugin ∈ plugins, ∀ inner, plugin.wrapResolver inner = inner) :
    (factory.withPlugins plugins).resolver = factory.resolver := by
  induction plugins generalizing factory with
  | nil => rfl
  | cons plugin plugins ih =>
    show ((factory.addPlugin plugin).withPlugins plugins).resolver = _
    rw [ih fun other hother => h other (List.mem_cons_of_mem _ hother), addPlugin]
    exact h plugin List.mem_cons_self factory.resolver

end Factory

namespace Dojo

open Factory

variable {σ : Type} {loader : Loader} {noModule : String} {inner : Resolver σ}
  {others : List (FactoryPlugin σ)}

/-- Plugins that change requests and nothing else. -/
def OnlyRequests (others : List (FactoryPlugin σ)) : Prop :=
  ∀ plugin ∈ others, (∀ inner, plugin.wrapResolver inner = inner) ∧
    ∀ resolved, plugin.createModule resolved = .ok none

/-- The factory that has the adapter first. -/
def extended (loader : Loader) (noModule : String) (inner : Resolver σ)
    (others : List (FactoryPlugin σ)) : Factory σ :=
  (pipeline loader noModule inner).withPlugins others

theorem plugins_extended :
    (extended loader noModule inner others).plugins = adapter loader noModule :: others :=
  plugins_withPlugins others

/-! ### One creation -/

section Step

variable {final : ResolveData} {graph graph' : ModuleGraph} {idx : Nat} {absMid id : String}

theorem ids_of_extended (hothers : OnlyRequests others) {state state' : σ}
    {resolved : ResolvedModule}
    (h : (extended loader noModule inner others).resolver final state = (.ok resolved, state')) :
    resolved.absMid = final.absMid ∧ resolved.absMidAliases = final.absMidAliases := by
  rw [extended, resolver_withPlugins fun plugin hmem => (hothers plugin hmem).1] at h
  exact ids_of_resolver h

/-- The record of a module with an absolute id is the adapter's, and has all its ids. -/
theorem answersTo_of_makeRecord {resolved : ResolvedModule} {record : ModuleRecord}
    (h : makeRecord (extended loader noModule inner others).plugins resolved = .ok record)
    (hmid : resolved.absMid = some absMid) :
    record.answersTo id = true ↔ id = absMid ∨ id ∈ resolved.absMidAliases := by
  simp only [plugins_extended, makeRecord, adapter, createModule, hmid, Except.ok.injEq] at h
  subst h
  rw [ModuleRecord.answersTo_iff, ModuleRecord.absMids]
  simp

/-- **One creation.**  For a request with an absolute id that succeeds: what its module answers to
afterwards. -/
theorem answersAt_created (hothers : OnlyRequests others)
    (h : (extended loader noModule inner others).Created final graph idx graph')
    (hmid : final.absMid = some absMid) (hgraph : graph.Indexed) :
    graph'.AnswersAt idx id ↔
      graph.AnswersAt idx id ∨ id = absMid ∨ idx = graph.size ∧ id ∈ final.absMidAliases := by
  cases h with
  | known hknown hfound =>
    obtain rfl := Option.some.inj (hmid.symm.trans hknown)
    have hanswers : graph.AnswersAt idx absMid := hgraph.answers absMid idx hfound
    have hold : idx ≠ graph.size := by
      rintro rfl
      exact ModuleGraph.not_answersAt_size hanswers
    constructor
    · exact .inl
    · rintro (hid | rfl | ⟨hnew, -⟩)
      · exact hid
      · exact hanswers
      · exact absurd hnew hold
  | @reached _ _ resolved _ hunknown hresolved hfound =>
    obtain ⟨record, hget⟩ := hgraph.get?_of_byIdentifier? hfound
    have hold : idx ≠ graph.size := Nat.ne_of_lt (ModuleGraph.lt_size_of_get? hget)
    rw [(ids_of_extended hothers hresolved).1, hmid]
    refine (ModuleGraph.answersAt_addAlias hget).trans ?_
    simp [hold, eq_comm]
  | @made _ _ resolved record hunknown hresolved hnew hrecord =>
    obtain ⟨hresolvedMid, hresolvedAliases⟩ := ids_of_extended hothers hresolved
    rw [ModuleGraph.answersAt_add, answersTo_of_makeRecord hrecord (hresolvedMid.trans hmid),
      hresolvedAliases]
    simp [ModuleGraph.not_answersAt_size]

end Step

/-! ### Runs -/

/-- **Aliases.**  In a run of a factory that has the adapter and behind it plugins that change
requests and nothing else, from a graph without modules and around any resolver, take a creation
that succeeds for a request with an absolute id.  Its module answers to this id afterwards; what
else it answers to is what it did before, and the aliases of the request if it is new.  So it
answers to all of these exactly if it is new or each of them is the id or was known to be its own.
-/
theorem aliases_createEach (hothers : OnlyRequests others) {start : σ}
    {requests : List ResolveData} {i : Nat} {data final : ResolveData} {absMid : String} {idx : Nat}
    (hdata : requests[i]? = some data)
    (hfinal : Factory.beforeResolve (extended loader noModule inner others).plugins data =
      .ok final)
    (hmid : final.absMid = some absMid)
    (hok : ((extended loader noModule inner others).createEach requests ⟨.empty, start⟩).1[i]? =
      some (.ok idx)) :
    let graph := (extended loader noModule inner others).graphAfter start requests i
    let graph' := (extended loader noModule inner others).graphAfter start requests (i + 1)
    graph'.AnswersAt idx absMid ∧
      (∀ id, graph'.AnswersAt idx id ↔
        graph.AnswersAt idx id ∨ id = absMid ∨ idx = graph.size ∧ id ∈ final.absMidAliases) ∧
      ((∀ id ∈ final.absMidAliases, graph'.AnswersAt idx id) ↔
        idx = graph.size ∨
          ∀ id ∈ final.absMidAliases, id = absMid ∨ graph.AnswersAt idx id) := by
  intro graph graph'
  have hanswers : ∀ id, graph'.AnswersAt idx id ↔
      graph.AnswersAt idx id ∨ id = absMid ∨ idx = graph.size ∧ id ∈ final.absMidAliases :=
    fun id => answersAt_created hothers (created_graphAfter hdata hfinal hok) hmid
      (indexed_graphAfter start requests i)
  refine ⟨(hanswers absMid).mpr (.inr (.inl rfl)), hanswers, ?_⟩
  simp only [hanswers]
  constructor
  · intro hall
    -- a new module has all of them, one that was there at most the absolute id
    by_cases hnew : idx = graph.size
    · exact .inl hnew
    · refine .inr fun id hid => ?_
      rcases hall id hid with hold | hself | ⟨hidx, -⟩
      · exact .inr hold
      · exact .inl hself
      · exact absurd hidx hnew
  · rintro (hnew | hknown) id hid
    · exact .inr (.inr ⟨hnew, hid⟩)
    · rcases hknown id hid with hself | hold
      · exact .inr (.inl hself)
      · exact .inl hold

/-! ### An older name -/

section OlderName

open FileResolver

def oneScript : FileTree where
  files := [(["p", "a.js"], .empty)]
  dirs := [["p"]]

/-- A plugin that knows an older name of what is requested as `q/a`. -/
def olderName : FactoryPlugin Cache where
  name := "older"
  beforeResolve data :=
    .ok (if data.request = "q/a" then
      { data with absMidAliases := data.absMidAliases ++ ["old/a"] } else data)

/-- Both `p` and `q` are the directory of the module. -/
def twoNames : Factory Cache :=
  extended plainLoader "/rt/No.js"
    (resolve ⟨[("p", "/p"), ("q", "/p")], none⟩ oneScript.fileSystem) [olderName]

theorem onlyRequests_olderName : OnlyRequests [olderName] := by
  intro plugin hmem
  obtain rfl := List.mem_singleton.mp hmem
  exact ⟨fun _ => rfl, fun _ => rfl⟩

/-- An absolute id as the AMD module `m/main` requests it. -/
def itemRequest (request : String) : ResolveData :=
  .new "/" request [.amdItem ⟨some "m/main", "/m.js"⟩]

/-- The second name as the plugins leave it. -/
def secondName : ResolveData where
  context := "/"
  request := "q/a"
  dependencies := [.amdItem ⟨some "m/main", "/m.js"⟩]
  absMid := some "q/a"
  absMidAliases := ["old/a"]
  rawRequest := some "q/a"

/-- A module that is made under the second name answers to the older one. -/
theorem aliases_createEach_made :
    (twoNames.graphAfter [] [itemRequest "q/a"] 1).AnswersAt 0 "old/a" := by
  have hfinal : Factory.beforeResolve twoNames.plugins (itemRequest "q/a") = .ok secondName := by
    decide +kernel
  have hok : (twoNames.createEach [itemRequest "q/a"] ⟨.empty, []⟩).1[0]? = some (.ok 0) := by
    decide +kernel
  have hnew : 0 = (twoNames.graphAfter [] [itemRequest "q/a"] 0).size := rfl
  exact (aliases_createEach onlyRequests_olderName rfl hfinal rfl hok).2.2.mpr (.inl hnew) "old/a"
    (by decide)

/-- A module that was made under the first name gets the second, and not the older one. -/
theorem aliases_otherId :
    Factory.beforeResolve twoNames.plugins (itemRequest "q/a") = .ok secondName ∧
      (twoNames.createEach [itemRequest "p/a", itemRequest "q/a"] ⟨.empty, []⟩).1 =
        [.ok 0, .ok 0] ∧
      (twoNames.graphAfter [] [itemRequest "p/a", itemRequest "q/a"] 2).AnswersAt 0 "q/a" ∧
      ¬ (twoNames.graphAfter [] [itemRequest "p/a", itemRequest "q/a"] 2).AnswersAt 0 "old/a" := by
  decide +kernel

end OlderName

end Dojo
end AmdBundle
