import AmdBundle.Proofs.AbsMid.Separators
import AmdBundle.Proofs.Build.Site
import AmdBundle.Proofs.Build.Steps
import AmdBundle.Proofs.Resolver.Identifier

/-!
# AmdBundle.Proofs.Build.Endless — builds that do not end

A file that asks for itself is built once under each absolute id that its request means.  The id
depends on the one of the module that makes the request, so there may be one new id after the other
(`Site.AsksForItself`); then no number of steps is enough (`Site.AsksForItself.endless`).

This is so for a file that asks for itself behind a loader (`Site.selfText_endless`): the id is
taken against the absolute id of the module, loaders and all, so the module with `n` loaders in
front of its path asks for one with `n + 1`.
-/

namespace AmdBundle

open AbsMid Build Dojo Text

open FileResolver (Cache RequestParts Sound answer answer_ok sound_nil)

namespace Site

/-! ### Files that ask for themselves -/

/-- The absolute ids that follow each other: that of the entry, and that of the request as the
module with the id before makes it. -/
def ids (site : Site) (entry request : String) : Nat → String
  | 0 => resolve site.loader.toLoader entry none
  | n + 1 => resolve site.loader.toLoader request (some (ids site entry request n))

/-- The identifiers of a file under these ids. -/
def identifiers (site : Site) (entry request path : String) (n : Nat) : String :=
  (RequestParts.ofRequest (site.ids entry request n)).identifier path

/-- A request without a marker that is for no pseudo-module. -/
structure IsOrdinary (request : String) : Prop where
  detach : Marker.detach request = .ok none
  not_pseudo : ¬ (request = PseudoModule.require.id ∨ request = PseudoModule.module.id)

/-- The file is what the entry means, and asks for nothing but itself: whatever absolute id it has
been reached under, its one request means it under another one, which it has not had yet. -/
structure AsksForItself (site : Site) (entry request path : String) : Prop where
  entry_ordinary : IsOrdinary entry
  request_ordinary : IsOrdinary request
  asks : ∀ record : ModuleRecord, record.resource = path → ∃ output,
    site.build.walkModule record = .ok output ∧
      output.dependencies.filterMap (requestData? record.context) =
        [.new record.context request [.amdItem ⟨record.absMid, record.request⟩]]
  absolute : ∀ n, ((site.ids entry request n).toList.head? == some '.') = false
  nonempty : ∀ n, (RequestParts.ofRequest (site.ids entry request n)).specifier.isEmpty = false
  found : ∀ n context, site.files.findResource site.disk.toFileSystem
    (RequestParts.ofRequest (site.ids entry request n)).specifier context = .ok path
  fresh : Function.Injective (site.identifiers entry request path)

variable {site : Site} {entry request path : String} {n : Nat}

namespace AsksForItself

theorem ids_injective (h : AsksForItself site entry request path) :
    Function.Injective (site.ids entry request) := by
  intro n m heq
  refine h.fresh ?_
  rw [identifiers, identifiers, heq]

/-- There is no module under the id at `n`, and none under the later ones. -/
structure Unmade (site : Site) (entry request path : String) (n : Nat) (graph : ModuleGraph) :
    Prop where
  id : ∀ m ≥ n, graph.byAbsMid? (site.ids entry request m) = none
  identifier : ∀ m ≥ n, graph.byIdentifier? (site.identifiers entry request path m) = none

structure IsAt (site : Site) (entry request path : String) (n : Nat) (record : ModuleRecord) :
    Prop where
  resource : record.resource = path
  absMid : record.absMid = some (site.ids entry request n)
  aliases : record.absMidAliases = []
  identifier : record.request = site.identifiers entry request path n

theorem Unmade.add (h : AsksForItself site entry request path) {graph : ModuleGraph}
    {record : ModuleRecord} (hunmade : Unmade site entry request path n graph)
    (hrecord : IsAt site entry request path n record) :
    Unmade site entry request path (n + 1) (graph.add record).2 := by
  constructor
  · intro m hm
    have hne : site.ids entry request m ∉ record.absMids := by
      intro hmem
      rw [ModuleRecord.absMids, hrecord.absMid, hrecord.aliases] at hmem
      have heq : m = n := h.ids_injective (List.mem_singleton.mp hmem)
      omega
    rw [ModuleGraph.byAbsMid?_add, hunmade.id m (Nat.le_of_succ_le hm), if_neg hne,
      Option.or_none]
  · intro m hm
    have hne : site.identifiers entry request path m ≠ record.request := by
      intro hmem
      rw [hrecord.identifier] at hmem
      have heq : m = n := h.fresh hmem
      omega
    rw [ModuleGraph.byIdentifier?_add, if_neg hne, hunmade.identifier m (Nat.le_of_succ_le hm)]

theorem createFrom_eq_ok (h : AsksForItself site entry request path) (data : ResolveData)
    (work : Workspace Cache) {issuer : Option String}
    (hsound : Sound site.files site.disk.toFileSystem work.resolver)
    (hunmade : Unmade site entry request path n work.graph) (hordinary : IsOrdinary data.request)
    (hissuer : issuerContext? data = some issuer)
    (hresolve : resolve site.loader.toLoader data.request issuer = site.ids entry request n) :
    ∃ record cache, IsAt site entry request path n record ∧
      Sound site.files site.disk.toFileSystem cache ∧
      site.build.factory.createFrom data work =
        (.ok work.graph.size, ⟨(work.graph.add record).2, cache⟩) := by
  let id := site.ids entry request n
  -- what the adapter makes of the request
  let final : ResolveData := { data with
    rawRequest := some data.request, request := id, absMid := some id, absMidAliases := [] }
  have hbefore : beforeResolve site.loader.toLoader site.options.noModuleRequest data = .ok final :=
    beforeResolve_of_resolve hordinary.detach hordinary.not_pseudo hissuer hresolve (h.absolute n)
  let resolved : ResolvedModule := {
    request := site.identifiers entry request path n
    userRequest := id
    rawRequest := data.request
    resource := path
    loaders := (RequestParts.ofRequest id).loaders }
  have hanswer : answer final (site.files.findResource site.disk.toFileSystem
      (RequestParts.ofRequest final.request).specifier final.context) = .ok resolved := by
    rw [h.found n final.context]
    exact answer_ok rfl (h.nonempty n)
  obtain ⟨cache, hcache, hcreate⟩ := createFrom_of_new hsound hbefore rfl
    (hunmade.id n (Nat.le_refl n)) hanswer (hunmade.identifier n (Nat.le_refl n)) rfl
  exact ⟨_, cache, ⟨rfl, rfl, rfl, rfl⟩, hcache, hcreate⟩

/-! ### One id after the other -/

/-- How far a build has come when the module that has the id at `n` is the next one. -/
structure Reached (site : Site) (entry request path : String) (n : Nat)
    (state : BuildState Cache) : Prop where
  sound : Sound site.files site.disk.toFileSystem state.work.resolver
  queue : state.queue = [n]
  seen : ∀ i ∈ state.seen, i ≤ n
  size : state.work.graph.size = n + 1
  last : ∃ record, state.work.graph.get? n = some record ∧ IsAt site entry request path n record
  unmade : Unmade site entry request path (n + 1) state.work.graph

theorem reached_start (h : AsksForItself site entry request path) :
    ∃ state, site.build.start entry [] = .ok (0, state) ∧
      Reached site entry request path 0 state := by
  have hunmade : Unmade site entry request path 0 {} := ⟨fun _ _ => rfl, fun _ _ => rfl⟩
  obtain ⟨record, cache, hrecord, hcache, hcreate⟩ :=
    h.createFrom_eq_ok (.new site.build.cwd entry [.entry]) ⟨{}, []⟩ sound_nil hunmade
      h.entry_ordinary rfl rfl
  let work : Workspace Cache := ⟨(ModuleGraph.add {} record).2, cache⟩
  have hstart : site.build.start entry [] = .ok (0, ⟨work, [0], [0], []⟩) := by
    rw [start, hcreate]
    rfl
  exact ⟨⟨work, [0], [0], []⟩, hstart, hcache, rfl, by simp, rfl, ⟨record, rfl, hrecord⟩,
    hunmade.add h hrecord⟩

theorem createAll_eq_ok (h : AsksForItself site entry request path) {state : BuildState Cache}
    (hreached : Reached site entry request path n state) {record : ModuleRecord}
    (hrecord : IsAt site entry request path n record) (identity : String) :
    ∃ next cache, IsAt site entry request path (n + 1) next ∧
      Sound site.files site.disk.toFileSystem cache ∧
      (site.build.createAll
        [.new record.context request [.amdItem ⟨record.absMid, identity⟩]] []).run.run state.work =
          (.ok [n + 1], ⟨(state.work.graph.add next).2, cache⟩) := by
  let data : ResolveData := .new record.context request [.amdItem ⟨record.absMid, identity⟩]
  have hissuer : issuerContext? data = some (some (site.ids entry request n)) := by
    show some (some (record.absMid.getD identity)) = _
    rw [hrecord.absMid, Option.getD_some]
  obtain ⟨next, cache, hnext, hcache, hcreate⟩ :=
    h.createFrom_eq_ok data state.work hreached.sound hreached.unmade h.request_ordinary hissuer rfl
  refine ⟨next, cache, hnext, hcache, ?_⟩
  rw [run_createAll_cons, hcreate, hreached.size]
  rfl

theorem Reached.step (h : AsksForItself site entry request path) {state : BuildState Cache}
    (hreached : Reached site entry request path n state) :
    ∃ next, site.build.next? state = some next ∧
      Reached site entry request path (n + 1) next := by
  obtain ⟨record, hget, hrecord⟩ := hreached.last
  obtain ⟨output, hwalk, hrequests⟩ := h.asks record hrecord.resource
  obtain ⟨made, cache, hmade, hcache, hcreate⟩ :=
    h.createAll_eq_ok hreached hrecord record.request
  rw [← hrequests] at hcreate
  refine ⟨_, next?_of_createAll hreached.queue hget hwalk hcreate, ?_⟩
  -- the module is new, so it is put behind the queue, which is empty by now
  have hfresh : freshPlaces state [n + 1] = [n + 1] := by
    have hnew : n + 1 ∉ state.seen := fun hseen =>
      absurd (hreached.seen (n + 1) hseen) (by omega)
    simp [freshPlaces, hnew]
  have hunmade := hreached.unmade.add h hmade
  rw [hfresh]
  refine ⟨hcache, rfl, ?_, ?_, ⟨made, ?_, hmade⟩, hunmade.id, hunmade.identifier⟩
  · intro i hi
    rcases List.mem_append.mp hi with hold | hnew
    · exact Nat.le_succ_of_le (hreached.seen i hold)
    · exact Nat.le_of_eq (List.mem_singleton.mp hnew)
  · rw [ModuleGraph.size_modify, ModuleGraph.size_add, hreached.size]
  · rw [ModuleGraph.get?_modify, if_neg (by omega), ModuleGraph.get?_add,
      if_pos hreached.size.symm]

/-- A build of such a file does not end, whatever fuel it has. -/
theorem endless (h : AsksForItself site entry request path) :
    ¬ ∃ fuel output, site.build.build? fuel entry [] = some output := by
  obtain ⟨state, hstart, hreached⟩ := h.reached_start
  exact not_exists_build? hstart hreached fun n state hreached => hreached.step h

end AsksForItself
end Site

/-! ### Loaders in front of a text -/

def behindLoaders : Nat → String → String
  | 0, text => text
  | n + 1, text => "t!" ++ behindLoaders n text

theorem behindLoaders_append (n : Nat) (text more : String) :
    behindLoaders n (text ++ more) = behindLoaders n text ++ more := by
  induction n with
  | zero => rfl
  | succ n ih => rw [behindLoaders, behindLoaders, ih, String.append_assoc]

theorem length_behindLoaders (n : Nat) (text : String) :
    (behindLoaders n text).toList.length = 2 * n + text.toList.length := by
  induction n with
  | zero => simp [behindLoaders]
  | succ n ih =>
    rw [behindLoaders, String.toList_append, List.length_append, ih]
    show 2 + _ = _
    omega

theorem behindLoaders_inj {n m : Nat} {text : String}
    (h : behindLoaders n text = behindLoaders m text) : n = m := by
  have hlength : (behindLoaders n text).toList.length = (behindLoaders m text).toList.length :=
    congrArg (fun whole => whole.toList.length) h
  rw [length_behindLoaders, length_behindLoaders] at hlength
  omega

theorem join_replicate_loader (n : Nat) (text : String) :
    String.join ((List.replicate n "t").map (· ++ "!")) ++ text = behindLoaders n text := by
  induction n with
  | zero => simp [behindLoaders]
  | succ n ih =>
    rw [List.replicate_succ, List.map_cons, String.join_cons, String.append_assoc, ih]
    rfl

theorem split_behindLoaders (n : Nat) {text : String} (h : '!' ∉ text.toList) :
    split '!' (behindLoaders n text) = List.replicate n "t" ++ [text] := by
  rw [← join_replicate_loader]
  refine RequestParts.split_join_append (fun loader hloader => ?_) h
  rw [List.eq_of_mem_replicate hloader]
  decide

theorem ofRequest_behindLoaders (n : Nat) {text : String} (h : '!' ∉ text.toList) :
    RequestParts.ofRequest (behindLoaders n text) =
      { RequestParts.ofRequest text with loaders := List.replicate n "t" } := by
  rw [RequestParts.ofRequest, RequestParts.ofRequest, split_behindLoaders n h, split_of_not_mem h]
  simp

theorem mem_behindLoaders (n : Nat) {text : String} {c : Char} (h : c ∈ text.toList) :
    c ∈ (behindLoaders n text).toList := by
  induction n with
  | zero => exact h
  | succ n ih =>
    rw [behindLoaders, String.toList_append]
    exact List.mem_append_right _ ih

theorem mem_of_mem_behindLoaders {n : Nat} {text : String} {c : Char}
    (h : c ∈ (behindLoaders n text).toList) : c = 't' ∨ c = '!' ∨ c ∈ text.toList := by
  induction n with
  | zero => exact .inr (.inr h)
  | succ n ih =>
    rw [behindLoaders, String.toList_append] at h
    rcases List.mem_append.mp h with hloader | htext
    · have hloader : c ∈ ['t', '!'] := hloader
      rcases List.mem_cons.mp hloader with rfl | hmark
      · exact .inl rfl
      · exact .inr (.inl (List.mem_singleton.mp hmark))
    · exact ih htext

/-- Loaders in front of a segment go into the segment. -/
theorem segments_behindLoaders (n : Nat) :
    ModuleId.segments (behindLoaders n "p") = [(behindLoaders n "p").toList] := by
  have hno : ∀ c ∈ (behindLoaders n "p").toList, c ≠ '/' ∧ c ≠ '\\' := by
    intro c hc
    rcases mem_of_mem_behindLoaders hc with rfl | rfl | htext
    · decide
    · decide
    · obtain rfl : c = 'p' := List.mem_singleton.mp htext
      decide
  have hkept : (behindLoaders n "p").toList.map (fun c => if c = '\\' then '/' else c) =
      (behindLoaders n "p").toList :=
    (List.map_congr_left fun c hc => if_neg (hno c hc).2).trans (List.map_id _)
  rw [ModuleId.segments, hkept, splitOn_of_not_mem fun h => (hno '/' h).1 rfl]

/-- Beside a module with loaders in front there are modules with these loaders. -/
theorem siblingPath_behindLoaders (n : Nat) :
    ModuleId.siblingPath (behindLoaders n "p/q") "./q" = behindLoaders n "p/q" := by
  have hpath : behindLoaders n "p/q" = behindLoaders n "p" ++ "/" ++ "q" := by
    rw [← behindLoaders_append, ← behindLoaders_append]
    rfl
  -- the directory is neither `.` nor `..`, with or without loaders, so it is kept
  have hname : 'p' ∈ (behindLoaders n "p").toList := mem_behindLoaders n (by decide)
  have hdot : (behindLoaders n "p").toList ≠ ['.'] := fun h => by simp [h] at hname
  have hdots : (behindLoaders n "p").toList ≠ ['.', '.'] := fun h => by simp [h] at hname
  have hdirectory : ModuleId.directorySegments (behindLoaders n "p/q") =
      [(behindLoaders n "p").toList] := by
    rw [ModuleId.directorySegments, hpath, ModuleId.segments_append_slash, segments_behindLoaders]
    simp [ModuleId.segments, splitOn, ModuleId.pushSegment, hdot, hdots]
  have hid : ModuleId.segments "./q" = [['.'], ['q']] := by decide
  have hjoin : ([['.'], ['q']].foldl ModuleId.pushSegment [(behindLoaders n "p").toList]).reverse =
      [(behindLoaders n "p").toList, ['q']] := by
    simp [ModuleId.pushSegment]
  rw [ModuleId.siblingPath_eq, hdirectory, hid, hjoin, hpath, String.append_assoc]
  simp [join]

/-! ### The requests of one module for another behind a loader -/

theorem resolveSegment_unconfigured {segment path : String} {issuer previous : Option String}
    (hquestion : hasChar '?' segment = false)
    (hverbatim : ConfiguredLoader.isVerbatim segment = false)
    (hpath : ConfiguredLoader.absolutePath? segment issuer = some path) :
    resolveSegment unconfigured.toLoader issuer previous segment = path := by
  rw [resolveSegment, hquestion, Bool.and_false, if_neg Bool.false_ne_true,
    ConfiguredLoader.toAbsMid_toLoader]
  exact normalize_unconfigured_of_path hverbatim hpath

theorem resolve_behindLoader (context : String) :
    resolve unconfigured.toLoader "t!./q" (some context) =
      "t!" ++ ModuleId.siblingPath context "./q" := by
  have hloader : ConfiguredLoader.absolutePath? "t" (some context) = some "t" := by
    rw [ConfiguredLoader.absolutePath?, if_neg (by decide)]
    decide
  have hpath : ConfiguredLoader.absolutePath? "./q" (some context) =
      some (ModuleId.siblingPath context "./q") := if_pos (by decide)
  have hsplit : split '!' "t!./q" = ["t", "./q"] := by decide
  rw [resolve, if_neg (by decide), hsplit, resolveSegments_cons, resolveSegments_cons,
    resolveSegment_unconfigured (by decide) (by decide) hloader,
    resolveSegment_unconfigured (by decide) (by decide) hpath, resolveSegments, joinWith,
    ← String.toList_inj, String.toList_append]
  simp [join]

/-! ### A file that asks for itself behind a loader -/

namespace Site

/-- One file, which asks for itself behind a loader. -/
def selfText : Site where
  cwd := "/"
  files := { baseDir := some "/" }
  disk := FileTree.finite { files := [(["p", "q.js"], .empty)], dirs := [["p"]] }
  options := { noModule := "/no.js" }
  loader := unconfigured
  program _ := [.expr (.call 0 {} "require" [.array {} [.str {} "t!./q"]])]

theorem ids_selfText (n : Nat) : selfText.ids "p/q" "t!./q" n = behindLoaders n "p/q" := by
  induction n with
  | zero => decide +kernel
  | succ n ih =>
    rw [ids, ih]
    show resolve unconfigured.toLoader "t!./q" _ = _
    rw [resolve_behindLoader, siblingPath_behindLoaders, behindLoaders]

theorem ofRequest_ids_selfText (n : Nat) :
    RequestParts.ofRequest (selfText.ids "p/q" "t!./q" n) = ⟨List.replicate n "t", "p/q", ""⟩ := by
  have hpath : RequestParts.ofRequest "p/q" = ⟨[], "p/q", ""⟩ := by decide +kernel
  rw [ids_selfText, ofRequest_behindLoaders n (by decide), hpath]

theorem findResource_selfText (context : String) :
    selfText.files.findResource selfText.disk.toFileSystem "p/q" context = .ok "/p/q.js" := rfl

theorem identifiers_selfText (n : Nat) :
    selfText.identifiers "p/q" "t!./q" "/p/q.js" n = behindLoaders n "/p/q.js" := by
  rw [identifiers, ofRequest_ids_selfText, RequestParts.identifier, join_replicate_loader,
    String.append_empty]

theorem walk_selfText (path : String) (identity : ModuleIdentity) :
    FileState.walk selfText.build.hooks (selfText.program path) { identity } =
      (.ok (), { identity, dependencies := [
        .item ⟨.external ⟨"t!./q", identity⟩, none, {}, false⟩,
        .array ⟨[.external ⟨"t!./q", identity⟩], {}, {}, false⟩] }) := by
  show (HookTable.walkNodes _ [_]).runFrom _ = _
  rw [HookTable.walkNodes, HookTable.walkNodes, HookTable.walkExpr]
  rfl

theorem asksForItself_selfText : AsksForItself selfText "p/q" "t!./q" "/p/q.js" where
  entry_ordinary := ⟨by decide +kernel, by decide⟩
  request_ordinary := ⟨by decide +kernel, by decide⟩
  asks record _ :=
    ⟨_, walkModule_eq_ok rfl (walk_selfText _ ⟨record.absMid, record.request⟩), rfl⟩
  absolute n := by
    rw [ids_selfText]
    cases n with
    | zero => decide
    | succ n =>
      rw [behindLoaders, String.toList_append]
      rfl
  nonempty n := by
    rw [ofRequest_ids_selfText]
    rfl
  found n context := by
    rw [ofRequest_ids_selfText]
    exact findResource_selfText context
  fresh n m heq := by
    rw [identifiers_selfText, identifiers_selfText] at heq
    exact behindLoaders_inj heq

/-- **No end.**  A file that asks for itself behind a loader, under no configuration, is built under
one more absolute id after the other. -/
theorem selfText_endless :
    ¬ ∃ fuel output, selfText.build.build? fuel "p/q" [] = some output :=
  asksForItself_selfText.endless

end Site
end AmdBundle
