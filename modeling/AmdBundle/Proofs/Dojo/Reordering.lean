import AmdBundle.FileSystem.Tree
import AmdBundle.Proofs.Dojo.Origin

/-!
# AmdBundle.Proofs.Dojo.Reordering — requests in another order

What is left when the modules for some requests have been created can be said without regard to
their order (`Described`): there is a module for each identifier that a request is resolved to, and
it answers to the absolute ids of these requests.  So the same requests in another order give the
same modules under the same ids (`runPipeline_perm`), as long as no absolute id is resolved to two
identifiers (`Agree`).

The resolver may keep a state, but what it answers must not depend on it (`Steady`); so it is with
the resolver for files (`steady_files`).
-/

namespace AmdBundle
namespace Dojo

open Factory

variable {σ : Type} {loader : Loader} {noModule : String} {inner : Resolver σ}
  {answer : ResolveData → Except ResolveError ResolvedModule} {Valid : σ → Prop}

/-! ### What requests come to -/

/-- A resolver whose answers depend on nothing but the request, as long as its state is valid, which
it stays. -/
structure Steady (inner : Resolver σ) (answer : ResolveData → Except ResolveError ResolvedModule)
    (Valid : σ → Prop) : Prop where
  answers : ∀ data state, Valid state → (inner data state).1 = answer data
  keeps : ∀ data state, Valid state → Valid (inner data state).2

/-- What the resolver for files answers, whatever it has kept. -/
def fileAnswer (files : FileResolver) (fs : FileSystem) (data : ResolveData) :
    Except ResolveError ResolvedModule :=
  FileResolver.answer data (files.findResource fs
    (FileResolver.RequestParts.ofRequest data.request).specifier data.context)

theorem steady_files (files : FileResolver) (fs : FileSystem) :
    Steady (files.resolve fs) (fileAnswer files fs) (FileResolver.Sound files fs) :=
  ⟨fun data _ h => h.fst_resolve data, fun data _ h => h.snd_resolve data⟩

/-- What a request is resolved to, with its ids; `none` where the adapter or the resolver refuses.
-/
def outcome? (loader : Loader) (noModule : String)
    (answer : ResolveData → Except ResolveError ResolvedModule) (request : PlainRequest) :
    Option ResolvedModule :=
  match beforeResolve loader noModule request.data with
  | .error _ => none
  | .ok final => (answer final).toOption.map (carryIds final)

/-- Requests with one absolute id are resolved to one identifier, or to nothing all of them. -/
def Agree (loader : Loader) (noModule : String)
    (answer : ResolveData → Except ResolveError ResolvedModule) (requests : List PlainRequest) :
    Prop :=
  ∀ a ∈ requests, ∀ b ∈ requests, assignedId loader noModule a.data ≠ none →
    assignedId loader noModule a.data = assignedId loader noModule b.data →
      (outcome? loader noModule answer a).map ResolvedModule.request =
        (outcome? loader noModule answer b).map ResolvedModule.request

instance (requests : List PlainRequest) : Decidable (Agree loader noModule answer requests) :=
  inferInstanceAs (Decidable (∀ a ∈ requests, ∀ b ∈ requests,
    assignedId loader noModule a.data ≠ none →
      assignedId loader noModule a.data = assignedId loader noModule b.data →
        (outcome? loader noModule answer a).map ResolvedModule.request =
          (outcome? loader noModule answer b).map ResolvedModule.request))

theorem outcome?_eq_some {request : PlainRequest} {resolved : ResolvedModule}
    (h : outcome? loader noModule answer request = some resolved) :
    ∃ final found, beforeResolve loader noModule request.data = .ok final ∧
      answer final = .ok found ∧ resolved = carryIds final found := by
  unfold outcome? at h
  split at h
  · simp at h
  · rename_i final hbefore
    obtain ⟨found, hfound, rfl⟩ := Option.map_eq_some_iff.mp h
    refine ⟨final, found, hbefore, ?_, rfl⟩
    cases hanswer : answer final with
    | error error => simp [hanswer, Except.toOption] at hfound
    | ok other =>
      rw [hanswer] at hfound
      exact congrArg Except.ok (Option.some.inj hfound)

theorem absMid_of_outcome? {request : PlainRequest} {resolved : ResolvedModule}
    (h : outcome? loader noModule answer request = some resolved) :
    resolved.absMid = assignedId loader noModule request.data ∧ resolved.absMidAliases = [] := by
  obtain ⟨final, found, hbefore, -, rfl⟩ := outcome?_eq_some h
  rw [assignedId, hbefore]
  exact ⟨rfl, absMidAliases_of_beforeResolve hbefore rfl⟩

/-! ### A graph told from what requests came to -/

/-- But for its ids the module is what the first of those with its identifier says. -/
def FirstCome (outcomes : List ResolvedModule) (record : ModuleRecord) : Prop :=
  ∃ resolved, outcomes.find? (·.request == record.request) = some resolved ∧
    record.unnamed = defaultRecord resolved

/-- There is a module for each identifier in the list, which answers to the ids that come with this
identifier, and has its other entries from the first that has it. -/
structure Described (outcomes : List ResolvedModule) (graph : ModuleGraph) : Prop where
  consistent : graph.Consistent
  identifiers : ∀ identifier, (∃ i, graph.identifierAt? i = some identifier) ↔
    ∃ resolved ∈ outcomes, resolved.request = identifier
  ids : ∀ i record, graph.get? i = some record → ∀ absMid, record.answersTo absMid = true ↔
    ∃ resolved ∈ outcomes, resolved.request = record.request ∧ resolved.absMid = some absMid
  firstCome : ∀ i record, graph.get? i = some record → FirstCome outcomes record

variable {graph graph' : ModuleGraph} {resolved : ResolvedModule} {idx : Nat}

theorem FirstCome.append {outcomes : List ResolvedModule} {record : ModuleRecord}
    (h : FirstCome outcomes record) (more : List ResolvedModule) :
    FirstCome (outcomes ++ more) record := by
  obtain ⟨resolved, hfirst, hrecord⟩ := h
  exact ⟨resolved, by rw [List.find?_append, hfirst, Option.some_or], hrecord⟩

theorem FirstCome.of_unnamed_eq {outcomes : List ResolvedModule} {old record : ModuleRecord}
    (h : FirstCome outcomes old) (hsame : record.unnamed = old.unnamed) :
    FirstCome outcomes record := by
  obtain ⟨resolved, hfirst, hrecord⟩ := h
  rw [← ModuleRecord.request_eq_of_unnamed_eq hsame] at hfirst
  exact ⟨resolved, hfirst, hsame.trans hrecord⟩

theorem FirstCome.untouched {outcomes : List ResolvedModule} {record : ModuleRecord}
    (h : FirstCome outcomes record) : record.isAmd = false ∧ record.dependencies = [] := by
  obtain ⟨resolved, -, hrecord⟩ := h
  exact ⟨congrArg ModuleRecord.isAmd hrecord, congrArg ModuleRecord.dependencies hrecord⟩

theorem described_empty : Described [] .empty := by
  refine ⟨ModuleGraph.consistent_empty, fun identifier => ?_, ?_, ?_⟩ <;>
    simp [ModuleGraph.identifierAt?, ModuleGraph.empty, ModuleGraph.get?]

theorem exists_get?_of_reached {absMid : Option String} {i : Nat} {record : ModuleRecord}
    (h : (Factory.reached graph idx absMid).get? i = some record) :
    ∃ old, graph.get? i = some old ∧ record.unnamed = old.unnamed ∧
      ∀ id, record.answersTo id = true ↔ old.answersTo id = true ∨ idx = i ∧ absMid = some id := by
  cases absMid with
  | none => exact ⟨record, h, rfl, fun id => by simp⟩
  | some absMid =>
    change (graph.addAlias idx absMid).2.get? i = some record at h
    rw [ModuleGraph.get?_addAlias] at h
    split at h
    · rename_i hi
      obtain ⟨old, hold, rfl⟩ := Option.map_eq_some_iff.mp h
      refine ⟨old, hold, ModuleRecord.unnamed_reachedUnder old absMid, fun id => ?_⟩
      rw [ModuleRecord.answersTo_reachedUnder]
      simp [hi]
    · rename_i hi
      exact ⟨record, h, rfl, fun id => by simp [hi]⟩

namespace Described

variable {outcomes : List ResolvedModule} (h : Described outcomes graph)
include h

/-- A request that comes to the identifier of a module at most adds its id to this module. -/
theorem extend (hidx : graph.identifierAt? idx = some resolved.request)
    (hconsistent : graph'.Consistent)
    (hidentifiers : ∀ i, graph'.identifierAt? i = graph.identifierAt? i)
    (hmodules : ∀ i record, graph'.get? i = some record → ∃ old, graph.get? i = some old ∧
      record.unnamed = old.unnamed ∧ ∀ id, record.answersTo id = true ↔
        old.answersTo id = true ∨ idx = i ∧ resolved.absMid = some id) :
    Described (outcomes ++ [resolved]) graph' := by
  refine ⟨hconsistent, fun identifier => ?_, fun i record hget absMid => ?_,
    fun i record hget => ?_⟩
  · simp only [hidentifiers, h.identifiers]
    constructor
    · rintro ⟨other, hmem, hother⟩
      exact ⟨other, List.mem_append_left _ hmem, hother⟩
    · rintro ⟨other, hmem, rfl⟩
      rcases List.mem_append.mp hmem with hold | hnew
      · exact ⟨other, hold, rfl⟩
      · obtain rfl := List.mem_singleton.mp hnew
        exact (h.identifiers _).mp ⟨idx, hidx⟩
  · obtain ⟨old, hold, hsame, hans⟩ := hmodules i record hget
    have hrequest := ModuleRecord.request_eq_of_unnamed_eq hsame
    -- the module at the place is the one that has the identifier
    have hplace : idx = i ↔ resolved.request = record.request := by
      have hself : graph.identifierAt? i = some old.request := by
        rw [ModuleGraph.identifierAt?, hold, Option.map_some]
      rw [hrequest]
      constructor
      · rintro rfl
        exact Option.some.inj (hidx.symm.trans hself)
      · intro heq
        exact h.consistent.idx_eq_of_identifierAt? (heq ▸ hidx) hself
    rw [hans, h.ids i old hold, hplace, hrequest]
    simp [or_and_right, exists_or]
  · obtain ⟨old, hold, hsame, -⟩ := hmodules i record hget
    exact ((h.firstCome i old hold).of_unnamed_eq hsame).append [resolved]

theorem known {absMid : String} (hmid : resolved.absMid = some absMid)
    (hfound : graph.byAbsMid? absMid = some idx)
    (hidx : graph.identifierAt? idx = some resolved.request) :
    Described (outcomes ++ [resolved]) graph := by
  refine h.extend hidx h.consistent (fun _ => rfl) fun i record hget => ?_
  refine ⟨record, hget, rfl, fun id => (or_iff_left_of_imp ?_).symm⟩
  rintro ⟨rfl, hid⟩
  obtain ⟨other, hother, hans⟩ := (h.consistent.absMid absMid idx).mp hfound
  obtain rfl : other = record := Option.some.inj (hother.symm.trans hget)
  obtain rfl : absMid = id := Option.some.inj (hmid.symm.trans hid)
  exact hans

theorem unmet {identifier : String} (hnew : graph.byIdentifier? identifier = none) :
    (∀ i, graph.identifierAt? i ≠ some identifier) ∧
      ∀ other ∈ outcomes, other.request ≠ identifier := by
  have hunmet : ∀ i, graph.identifierAt? i ≠ some identifier := by
    intro i hi
    obtain ⟨record, hget, hrequest⟩ := Option.map_eq_some_iff.mp hi
    rw [(h.consistent.identifier _ i).mpr ⟨record, hget, hrequest⟩] at hnew
    simp at hnew
  refine ⟨hunmet, fun other hmem heq => ?_⟩
  obtain ⟨i, hi⟩ := (h.identifiers _).mpr ⟨other, hmem, heq⟩
  exact hunmet i hi

section Settled

variable (hmid : ∀ absMid, resolved.absMid = some absMid → graph.byAbsMid? absMid = none)
include hmid

theorem reached (hfound : graph.byIdentifier? resolved.request = some idx) :
    Described (outcomes ++ [resolved]) (Factory.reached graph idx resolved.absMid) := by
  obtain ⟨record, hget, hrequest⟩ := (h.consistent.identifier _ _).mp hfound
  have hidx : graph.identifierAt? idx = some resolved.request := by
    rw [ModuleGraph.identifierAt?, hget, Option.map_some, hrequest]
  refine h.extend hidx ?_ (identifierAt?_reached _) fun i record => exists_get?_of_reached
  cases hres : resolved.absMid with
  | none => exact h.consistent
  | some absMid => exact h.consistent.addAlias (hmid absMid hres) idx

theorem add (hnew : graph.byIdentifier? resolved.request = none) :
    Described (outcomes ++ [resolved])
      (graph.add { defaultRecord resolved with absMid := resolved.absMid }).2 := by
  obtain ⟨hunmet, hother⟩ := h.unmet hnew
  refine ⟨?consistent, fun identifier => ?identifiers, fun i record hget absMid => ?ids,
    fun i record hget => ?firstCome⟩
  case consistent =>
    refine h.consistent.add (ModuleRecord.wellNamed_of_no_aliases rfl) hnew fun absMid hmem => ?_
    rw [ModuleRecord.absMids] at hmem
    exact hmid absMid (by simpa [defaultRecord] using hmem)
  case identifiers =>
    simp only [ModuleGraph.identifierAt?_add]
    constructor
    · rintro ⟨i, hi⟩
      split at hi
      · exact ⟨resolved, by simp, Option.some.inj hi⟩
      · obtain ⟨other, hmem, hrequest⟩ := (h.identifiers identifier).mp ⟨i, hi⟩
        exact ⟨other, List.mem_append_left _ hmem, hrequest⟩
    · rintro ⟨other, hmem, rfl⟩
      rcases List.mem_append.mp hmem with hold | hlast
      · obtain ⟨i, hi⟩ := (h.identifiers _).mpr ⟨other, hold, rfl⟩
        refine ⟨i, ?_⟩
        rw [if_neg (Nat.ne_of_lt (ModuleGraph.lt_size_of_identifierAt? hi)), hi]
      · obtain rfl := List.mem_singleton.mp hlast
        exact ⟨graph.size, if_pos rfl⟩
  case ids =>
    rw [ModuleGraph.get?_add] at hget
    split at hget
    · -- the new module has the one id that it was asked for under
      obtain rfl := Option.some.inj hget
      constructor
      · intro hans
        refine ⟨resolved, by simp, rfl, ?_⟩
        simpa [ModuleRecord.answersTo, defaultRecord] using hans
      · rintro ⟨other, hmem, hrequest, hid⟩
        rcases List.mem_append.mp hmem with hold | hlast
        · exact absurd hrequest (hother other hold)
        · obtain rfl := List.mem_singleton.mp hlast
          simp [ModuleRecord.answersTo, hid]
    · have hne : resolved.request ≠ record.request := by
        intro heq
        refine hunmet i ?_
        rw [ModuleGraph.identifierAt?, hget, Option.map_some, heq]
      rw [h.ids i record hget]
      simp [or_and_right, exists_or, hne]
  case firstCome =>
    rw [ModuleGraph.get?_add] at hget
    split at hget
    · obtain rfl := Option.some.inj hget
      have hnone : outcomes.find? (·.request == resolved.request) = none :=
        List.find?_eq_none.mpr fun other hmem => by simpa using hother other hmem
      refine ⟨resolved, ?_, rfl⟩
      show (outcomes ++ [resolved]).find? (·.request == resolved.request) = some resolved
      rw [List.find?_append, hnone]
      simp
    · exact (h.firstCome i record hget).append [resolved]

end Settled

section Same

variable {outcomes' : List ResolvedModule} (h' : Described outcomes' graph')
  (hsame : ∀ resolved, resolved ∈ outcomes ↔ resolved ∈ outcomes')
include h' hsame

theorem perm_identifiers :
    (graph.modules.map ModuleRecord.request).Perm (graph'.modules.map ModuleRecord.request) := by
  refine (List.perm_ext_iff_of_nodup h.consistent.nodup_identifiers
    h'.consistent.nodup_identifiers).mpr fun identifier => ?_
  rw [← ModuleGraph.exists_identifierAt?_iff, ← ModuleGraph.exists_identifierAt?_iff,
    h.identifiers, h'.identifiers]
  simp only [hsame]

theorem perm_absMids {i j : Nat} {a b : ModuleRecord} (ha : graph.get? i = some a)
    (hb : graph'.get? j = some b) (hrequest : a.request = b.request) :
    a.absMids.Perm b.absMids := by
  refine (List.perm_ext_iff_of_nodup (h.consistent.wellNamed i a ha).nodup_absMids
    (h'.consistent.wellNamed j b hb).nodup_absMids).mpr fun absMid => ?_
  rw [← ModuleRecord.answersTo_iff, ← ModuleRecord.answersTo_iff, h.ids i a ha, h'.ids j b hb,
    hrequest]
  simp only [hsame]

end Same

end Described

/-! ### One creation -/

theorem makeRecord_pipeline (haliases : resolved.absMidAliases = []) :
    makeRecord (pipeline loader noModule inner).plugins resolved =
      .ok { defaultRecord resolved with absMid := resolved.absMid } := by
  rw [plugins_pipeline]
  cases hmid : resolved.absMid <;>
    simp [makeRecord, adapter, createModule, hmid, haliases, defaultRecord]

theorem Described.place {outcomes : List ResolvedModule} (h : Described outcomes graph)
    (haliases : resolved.absMidAliases = [])
    (hmid : ∀ absMid, resolved.absMid = some absMid → graph.byAbsMid? absMid = none) :
    ∃ idx graph', (pipeline loader noModule inner).place resolved graph = .ok (idx, graph') ∧
      Described (outcomes ++ [resolved]) graph' := by
  unfold Factory.place
  cases hfound : graph.byIdentifier? resolved.request with
  | some idx => exact ⟨idx, _, rfl, h.reached hmid hfound⟩
  | none =>
    dsimp only
    rw [makeRecord_pipeline haliases]
    exact ⟨graph.size, _, rfl, h.add hmid hfound⟩

def outcomes (loader : Loader) (noModule : String)
    (answer : ResolveData → Except ResolveError ResolvedModule) (requests : List PlainRequest) :
    List ResolvedModule :=
  requests.filterMap (outcome? loader noModule answer)

section Step

variable {requests done : List PlainRequest} {request : PlainRequest} {work : Workspace σ}

theorem outcome?_of_known (hagree : Agree loader noModule answer requests)
    (hdone : done ⊆ requests) (hrequest : request ∈ requests)
    (h : Described (outcomes loader noModule answer done) graph) {absMid : String}
    (hid : assignedId loader noModule request.data = some absMid)
    (hfound : graph.byAbsMid? absMid = some idx) :
    ∃ resolved, outcome? loader noModule answer request = some resolved ∧
      graph.identifierAt? idx = some resolved.request := by
  obtain ⟨record, hget, hans⟩ := (h.consistent.absMid absMid idx).mp hfound
  obtain ⟨other, hother, hidentifier, hmid⟩ := (h.ids idx record hget absMid).mp hans
  obtain ⟨earlier, hearlier, hcame⟩ := List.mem_filterMap.mp hother
  -- the one that the module has this id from
  have hsame : assignedId loader noModule request.data =
      assignedId loader noModule earlier.data := by
    rw [← (absMid_of_outcome? hcame).1, hmid, hid]
  have hmap := hagree request hrequest earlier (hdone hearlier) (by simp [hid]) hsame
  rw [hcame, Option.map_some] at hmap
  obtain ⟨resolved, hresolved, hrequest⟩ := Option.map_eq_some_iff.mp hmap
  refine ⟨resolved, hresolved, ?_⟩
  rw [ModuleGraph.identifierAt?, hget, Option.map_some, hrequest, hidentifier]

theorem outcomes_concat_of_none (h : outcome? loader noModule answer request = none) :
    outcomes loader noModule answer (done ++ [request]) = outcomes loader noModule answer done := by
  rw [outcomes, List.filterMap_append, List.filterMap_cons_none h, List.filterMap_nil,
    List.append_nil]
  rfl

theorem outcomes_concat_of_some {resolved : ResolvedModule}
    (h : outcome? loader noModule answer request = some resolved) :
    outcomes loader noModule answer (done ++ [request]) =
      outcomes loader noModule answer done ++ [resolved] := by
  rw [outcomes, List.filterMap_append, List.filterMap_cons_some h, List.filterMap_nil]
  rfl

theorem Described.createFrom (hsteady : Steady inner answer Valid)
    (hagree : Agree loader noModule answer requests) (hdone : done ⊆ requests)
    (hrequest : request ∈ requests) (hvalid : Valid work.resolver)
    (h : Described (outcomes loader noModule answer done) work.graph) :
    Described (outcomes loader noModule answer (done ++ [request]))
        ((pipeline loader noModule inner).createFrom request.data work).2.graph ∧
      Valid ((pipeline loader noModule inner).createFrom request.data work).2.resolver := by
  rw [createFrom_eq, beforeResolve_pipeline]
  cases hbefore : beforeResolve loader noModule request.data with
  | error error =>
    have hnone : outcome? loader noModule answer request = none := by rw [outcome?, hbefore]
    rw [outcomes_concat_of_none hnone]
    exact ⟨h, hvalid⟩
  | ok final =>
    have hid : assignedId loader noModule request.data = final.absMid := by
      rw [assignedId, hbefore]
    dsimp only
    -- a request whose id has a module does not get to the resolver
    cases hknown : final.absMid.bind work.graph.byAbsMid? with
    | some idx =>
      obtain ⟨absMid, hmid, hfound⟩ := Option.bind_eq_some_iff.mp hknown
      obtain ⟨resolved, hresolved, hidx⟩ :=
        outcome?_of_known hagree hdone hrequest h (hid.trans hmid) hfound
      rw [outcomes_concat_of_some hresolved]
      have hres := (absMid_of_outcome? hresolved).1.trans (hid.trans hmid)
      exact ⟨h.known hres hfound hidx, hvalid⟩
    | none =>
      dsimp only
      have hanswer := hsteady.answers final work.resolver hvalid
      have hkept := hsteady.keeps final work.resolver hvalid
      rcases hinner : inner final work.resolver with ⟨error | found, state⟩
      · rw [hinner] at hanswer hkept
        have hnone : outcome? loader noModule answer request = none := by
          rw [outcome?, hbefore]
          dsimp only
          rw [← hanswer]
          rfl
        rw [resolver_of_error hinner, outcomes_concat_of_none hnone]
        exact ⟨h, hkept⟩
      · rw [hinner] at hanswer hkept
        have hsome : outcome? loader noModule answer request = some (carryIds final found) := by
          rw [outcome?, hbefore]
          dsimp only
          rw [← hanswer]
          rfl
        have haliases := (absMid_of_outcome? hsome).2
        have hplaced : ∃ idx graph', (pipeline loader noModule inner).place
            (carryIds final found) work.graph = .ok (idx, graph') ∧ Described _ graph' :=
          h.place haliases (Option.bind_eq_none_iff.mp hknown)
        obtain ⟨idx, graph', hplace, hdescribed⟩ := hplaced
        rw [resolver_of_ok hinner, outcomes_concat_of_some hsome]
        dsimp only
        rw [hplace]
        exact ⟨hdescribed, hkept⟩

end Step

/-! ### Runs -/

section Run

variable {requests others : List PlainRequest}

theorem Agree.of_subset (h : Agree loader noModule answer requests) (hsubset : others ⊆ requests) :
    Agree loader noModule answer others :=
  fun a ha b hb => h a (hsubset ha) b (hsubset hb)

theorem Described.createEach (hsteady : Steady inner answer Valid)
    (hagree : Agree loader noModule answer requests) {done rest : List PlainRequest}
    {work : Workspace σ} (hdone : done ⊆ requests) (hrest : rest ⊆ requests)
    (hvalid : Valid work.resolver)
    (h : Described (outcomes loader noModule answer done) work.graph) :
    Described (outcomes loader noModule answer (done ++ rest))
      ((pipeline loader noModule inner).createEach (rest.map PlainRequest.data) work).2.graph := by
  induction rest generalizing done work with
  | nil =>
    rw [List.append_nil]
    exact h
  | cons request rest ih =>
    obtain ⟨hrequest, hrest⟩ := List.cons_subset.mp hrest
    obtain ⟨hnext, hkept⟩ := h.createFrom hsteady hagree hdone hrequest hvalid
    rw [List.map_cons, createEach_cons, List.append_cons]
    exact ih (List.append_subset.mpr ⟨hdone, by simpa using hrequest⟩) hrest hkept hnext

/-- The graph after a run, told from what its requests came to. -/
theorem described_runPipeline (hsteady : Steady inner answer Valid)
    (hagree : Agree loader noModule answer requests) {start : σ} (hstart : Valid start) :
    Described (outcomes loader noModule answer requests)
      (runPipeline loader noModule inner start requests).2.graph := by
  have hempty : Described (outcomes loader noModule answer []) .empty := described_empty
  exact hempty.createEach hsteady hagree (List.nil_subset _) (List.Subset.refl _) hstart

/-- **Reordering.**  Requests in another order, also from another state of the resolver, give
modules with the same identifiers, which answer to the same ids; of each module all but the ids is
what the first request for its identifier came to.  Only requests with one absolute id must not be
resolved to two identifiers. -/
theorem runPipeline_perm (hsteady : Steady inner answer Valid) {start start' : σ}
    (hstart : Valid start) (hstart' : Valid start') (hperm : requests.Perm others)
    (hagree : Agree loader noModule answer requests) :
    let graph := (runPipeline loader noModule inner start requests).2.graph
    let graph' := (runPipeline loader noModule inner start' others).2.graph
    (graph.modules.map ModuleRecord.request).Perm (graph'.modules.map ModuleRecord.request) ∧
      ∀ i j a b, graph.get? i = some a → graph'.get? j = some b → a.request = b.request →
        a.absMids.Perm b.absMids ∧ a.isAmd = b.isAmd ∧ a.dependencies = b.dependencies ∧
          FirstCome (outcomes loader noModule answer requests) a ∧
          FirstCome (outcomes loader noModule answer others) b := by
  intro graph graph'
  have h : Described _ graph := described_runPipeline hsteady hagree hstart
  have h' : Described _ graph' :=
    described_runPipeline hsteady (hagree.of_subset hperm.symm.subset) hstart'
  have hmem : ∀ resolved, resolved ∈ outcomes loader noModule answer requests ↔
      resolved ∈ outcomes loader noModule answer others := fun resolved =>
    (hperm.filterMap _).mem_iff
  refine ⟨h.perm_identifiers h' hmem, fun i j a b ha hb hrequest => ?_⟩
  have hfirst := h.firstCome i a ha
  have hfirst' := h'.firstCome j b hb
  obtain ⟨hamd, hdependencies⟩ := hfirst.untouched
  obtain ⟨hamd', hdependencies'⟩ := hfirst'.untouched
  exact ⟨h.perm_absMids h' hmem ha hb hrequest, hamd.trans hamd'.symm,
    hdependencies.trans hdependencies'.symm, hfirst, hfirst'⟩

end Run

/-! ### One file under two ids -/

section OneFile

/-- A resolver with a directory of its own for `p`. -/
def oneFileResolver : FileResolver := { aliases := [("p", "/p")] }

def oneFile : FileTree := { files := [(["p", "a.js"], .empty)], dirs := [["p"]] }

/-- The file under an id that is marked, under none, and under the one that goes with its path; and
a request that fails in between. -/
def oneFileRequests : List PlainRequest :=
  [⟨"/p", "./a?absMid=old/a", [.commonJs]⟩, ⟨"/p", "./a", [.commonJs]⟩,
    ⟨"/q", "p/none", [.amdItem ⟨some "q/y", "/q/y.js"⟩]⟩,
    ⟨"/q", "p/a", [.amdItem ⟨some "q/y", "/q/y.js"⟩]⟩]

def runOneFile (requests : List PlainRequest) :
    List (Except Error Nat) × Workspace FileResolver.Cache :=
  runPipeline plainLoader "/no.js" (oneFileResolver.resolve oneFile.fileSystem) [] requests

/-- Whichever comes first, there is one module for the file, which answers to both ids. -/
theorem runPipeline_perm_oneFile :
    Agree plainLoader "/no.js" (fileAnswer oneFileResolver oneFile.fileSystem) oneFileRequests ∧
      ((runOneFile oneFileRequests).2.graph.modules.map ModuleRecord.request).Perm
        ((runOneFile oneFileRequests.reverse).2.graph.modules.map ModuleRecord.request) ∧
      (runOneFile oneFileRequests).2.graph.modules.map ModuleRecord.absMids = [["old/a", "p/a"]] ∧
      (runOneFile oneFileRequests.reverse).2.graph.modules.map ModuleRecord.absMids =
        [["p/a", "old/a"]] := by
  have hagree : Agree plainLoader "/no.js" (fileAnswer oneFileResolver oneFile.fileSystem)
      oneFileRequests := by decide +kernel
  have hperm := runPipeline_perm (steady_files oneFileResolver oneFile.fileSystem)
    FileResolver.sound_nil FileResolver.sound_nil (List.reverse_perm oneFileRequests).symm hagree
  dsimp only at hperm
  refine ⟨hagree, ?_, by decide +kernel, by decide +kernel⟩
  unfold runOneFile
  exact hperm.1

end OneFile

end Dojo
end AmdBundle
