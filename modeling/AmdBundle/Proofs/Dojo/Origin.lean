import AmdBundle.Proofs.Dojo.Identity
import AmdBundle.Proofs.Graph.Identifiers
import AmdBundle.Proofs.Resolver.Cache
import Mathlib.Data.Finite.Prod
import Mathlib.Data.List.TakeWhile

/-!
# AmdBundle.Proofs.Dojo.Origin — where identifiers come from

An identifier is made of a request and the path of a file.  The adapter leaves a request that it
knows by itself (`ownRequests`) or puts the absolute id in its place (`request_cases`), so the
identifier of a module stems from a request of the first kind or from its own absolute id
(`ModuleRecord.Stems`).

`Tracked` says so of all modules; every creation keeps it, changes no identifier, and adds at most
one that is made of its request (`Tracked.createFrom`).
-/

namespace AmdBundle

/-! ### What requests are resolved to -/

def FileSystem.paths (fs : FileSystem) : Set String :=
  {path | ∃ asked, fs.canonical asked = .ok path}

namespace FileResolver

variable {files : FileResolver} {fs : FileSystem} {specifier context path : String} {cache : Cache}

theorem mem_paths_of_findResource (h : files.findResource fs specifier context = .ok path) :
    path ∈ fs.paths := by
  have hfile : ∀ target, findFile fs target specifier context = .ok path → path ∈ fs.paths := by
    intro target htarget
    unfold findFile at htarget
    split at htarget
    · rename_i candidate hcandidate
      split at htarget
      · rename_i found hfound
        obtain rfl := Except.ok.inj htarget
        exact ⟨_, hfound⟩
      · simp at htarget
    · simp at htarget
  rw [findResource] at h
  cases htarget : files.targetPath specifier context with
  | error error =>
    rw [htarget] at h
    exact absurd h (by intro heq; cases heq)
  | ok target =>
    rw [htarget] at h
    exact hfile target h

theorem Sound.of_resolve_eq_ok (h : Sound files fs cache) {data : ResolveData}
    {resolved : ResolvedModule} {cache' : Cache}
    (hok : files.resolve fs data cache = (.ok resolved, cache')) :
    resolved.resource ∈ fs.paths ∧
      resolved.request = (RequestParts.ofRequest data.request).identifier resolved.resource ∧
      Sound files fs cache' := by
  have hanswer := h.fst_resolve data
  have hkept := h.snd_resolve data
  rw [hok] at hanswer hkept
  unfold answer at hanswer
  dsimp only at hanswer
  split at hanswer
  · simp at hanswer
  · split at hanswer
    · simp at hanswer
    · rename_i resource hresource
      obtain rfl := Except.ok.inj hanswer
      exact ⟨mem_paths_of_findResource hresource, rfl, hkept⟩

theorem Sound.exists_resolve_eq (h : Sound files fs cache) {data : ResolveData}
    {resolved : ResolvedModule}
    (hfound : answer data (files.findResource fs (RequestParts.ofRequest data.request).specifier
      data.context) = .ok resolved) :
    ∃ cache', files.resolve fs data cache = (.ok resolved, cache') ∧ Sound files fs cache' := by
  have hanswer := (h.fst_resolve data).trans hfound
  have hkept := h.snd_resolve data
  rcases hresolve : files.resolve fs data cache with ⟨result, cache'⟩
  rw [hresolve] at hanswer hkept
  obtain rfl : result = .ok resolved := hanswer
  exact ⟨cache', rfl, hkept⟩

end FileResolver

open FileResolver in
/-- The identifiers made of a request and a path. -/
def identifiersOf (requests paths : Set String) : Set String :=
  Set.image2 (fun request path => (RequestParts.ofRequest request).identifier path) requests paths

theorem finite_identifiersOf {requests paths : Set String} (hrequests : requests.Finite)
    (hpaths : paths.Finite) : (identifiersOf requests paths).Finite :=
  hrequests.image2 _ hpaths

theorem identifier_of_plain {request : String} (hloader : Text.hasChar '!' request = false)
    (hquery : Text.hasChar '?' request = false) (path : String) :
    (FileResolver.RequestParts.ofRequest request).identifier path = path := by
  have hloader : '!' ∉ request.toList := by simpa [Text.hasChar] using hloader
  have hquery : '?' ∉ request.toList := by simpa [Text.hasChar] using hquery
  have hsplit : Text.split '!' request = [request] := Text.split_of_not_mem hloader
  have hdrop : request.toList.dropWhile (· != '?') = [] := by
    rw [List.dropWhile_eq_nil_iff]
    intro c hc
    exact bne_iff_ne.mpr (ne_of_mem_of_not_mem hc hquery)
  rw [FileResolver.RequestParts.ofRequest, hsplit]
  dsimp only [List.getLast?_singleton, Option.getD_some]
  rw [hdrop, FileResolver.RequestParts.identifier]
  simp

/-! ### What the adapter asks for -/

namespace Dojo

open Factory FileResolver

variable {loader : Loader} {noModule : String} {files : FileResolver} {fs : FileSystem}
  {own named : Set String}

/-- What the adapter may ask for in place of a request without making it absolute. -/
def ownRequests (noModule request : String) : List String :=
  match AbsMid.Marker.detach request with
  | .ok (some (bare, _)) => [bare]
  | _ => [request, noModule]

/-- A request of an AMD module that is neither marked nor for a pseudo-module, and whose absolute id
is not relative. -/
theorem beforeResolve_of_resolve {data : ResolveData} {issuer : Option String} {absMid : String}
    (hdetach : AbsMid.Marker.detach data.request = .ok none)
    (hpseudo : ¬ (data.request = PseudoModule.require.id ∨
      data.request = PseudoModule.module.id))
    (hissuer : issuerContext? data = some issuer)
    (hid : AbsMid.resolve loader data.request issuer = absMid)
    (hhead : (absMid.toList.head? == some '.') = false) :
    beforeResolve loader noModule data = .ok { data with
      rawRequest := some data.request, request := absMid, absMid := some absMid,
      absMidAliases := [] } := by
  rw [beforeResolve, hdetach]
  dsimp only
  rw [if_neg hpseudo, hissuer]
  dsimp only
  rw [hid, readdress, hhead, if_neg Bool.false_ne_true]

theorem request_cases {data final : ResolveData}
    (h : beforeResolve loader noModule data = .ok final) :
    final.request ∈ ownRequests noModule data.request ∨
      ∃ issuer, issuerContext? data = some issuer ∧
        final.request = AbsMid.resolve loader data.request issuer ∧
        final.absMid = some final.request := by
  unfold beforeResolve at h
  unfold ownRequests
  split at h
  · simp at h
  · rename_i bare absMid hdetach
    obtain rfl := Except.ok.inj h
    exact .inl (by simp [hdetach])
  · rename_i hdetach
    simp only [hdetach]
    split at h
    · obtain rfl := Except.ok.inj h
      exact .inl (by simp)
    · split at h
      · obtain rfl := Except.ok.inj h
        exact .inl (by simp)
      · rename_i issuer hissuer
        obtain rfl := Except.ok.inj h
        unfold readdress
        split
        · exact .inl (by simp)
        · exact .inr ⟨issuer, hissuer, rfl, rfl⟩

end Dojo

/-! ### Modules and their origin -/

/-- The identifier of the module is made of a request from a set, or of its absolute id. -/
structure ModuleRecord.Stems (fs : FileSystem) (own : Set String) (record : ModuleRecord) :
    Prop where
  resource : record.resource ∈ fs.paths
  request : ∃ request, (request ∈ own ∨ record.absMid = some request) ∧
    record.request = (FileResolver.RequestParts.ofRequest request).identifier record.resource

theorem ModuleRecord.Stems.withAbsMid {fs : FileSystem} {own : Set String} {record : ModuleRecord}
    (h : record.Stems fs own) (absMid : String) : (record.withAbsMid absMid).Stems fs own := by
  obtain ⟨request, horigin, hrequest⟩ := h.request
  unfold ModuleRecord.withAbsMid
  cases hmid : record.absMid with
  | none =>
    rw [hmid] at horigin
    exact ⟨h.resource, request, .inl (horigin.resolve_right (by simp)), hrequest⟩
  | some id =>
    rw [hmid] at horigin
    exact ⟨h.resource, request, horigin, hrequest⟩

theorem ModuleRecord.Stems.reachedUnder {fs : FileSystem} {own : Set String}
    {record : ModuleRecord} (h : record.Stems fs own) (absMid : String) :
    (record.reachedUnder absMid).Stems fs own := by
  unfold ModuleRecord.reachedUnder
  split
  · exact h
  · exact h.withAbsMid absMid

namespace Dojo

open Factory FileResolver

variable {loader : Loader} {noModule : String} {files : FileResolver} {fs : FileSystem}
  {own named : Set String} {work work' : Workspace Cache} {idx : Nat}

/-- What the resolver keeps is right, and the identifiers of all modules have their origin. -/
structure Tracked (files : FileResolver) (fs : FileSystem) (own : Set String)
    (work : Workspace Cache) : Prop where
  consistent : work.graph.Consistent
  sound : Sound files fs work.resolver
  stems : ∀ i record, work.graph.get? i = some record → record.Stems fs own

theorem tracked_empty : Tracked files fs own ⟨.empty, []⟩ :=
  ⟨ModuleGraph.consistent_empty, sound_nil, by simp [ModuleGraph.empty, ModuleGraph.get?]⟩

theorem resolver_eq_ok {σ : Type} {inner : Resolver σ} {data : ResolveData} {state state' : σ}
    {resolved : ResolvedModule}
    (h : (pipeline loader noModule inner).resolver data state = (.ok resolved, state')) :
    ∃ found, inner data state = (.ok found, state') ∧ resolved = carryIds data found := by
  change wrapResolver inner data state = (.ok resolved, state') at h
  unfold wrapResolver at h
  split at h
  · rename_i found after hfound
    obtain ⟨hresolved, rfl⟩ := Prod.mk.inj h
    exact ⟨found, hfound, (Except.ok.inj hresolved).symm⟩
  · simp at h

theorem unnamed_of_makeRecord {σ : Type} {inner : Resolver σ} {resolved : ResolvedModule}
    {record : ModuleRecord}
    (h : makeRecord (pipeline loader noModule inner).plugins resolved = .ok record) :
    record.unnamed = defaultRecord resolved := by
  cases hmid : resolved.absMid with
  | none =>
    simp only [plugins_pipeline, makeRecord, adapter, createModule, hmid, Except.ok.injEq] at h
    exact h ▸ rfl
  | some absMid =>
    simp only [plugins_pipeline, makeRecord, adapter, createModule, hmid, Except.ok.injEq] at h
    exact h ▸ rfl

theorem resolver_of_ok {σ : Type} {inner : Resolver σ} {data : ResolveData} {state state' : σ}
    {found : ResolvedModule} (h : inner data state = (.ok found, state')) :
    (pipeline loader noModule inner).resolver data state = (.ok (carryIds data found), state') := by
  change wrapResolver inner data state = _
  rw [wrapResolver, h]

theorem resolver_of_error {σ : Type} {inner : Resolver σ} {data : ResolveData}
    {state state' : σ} {error : ResolveError} (h : inner data state = (.error error, state')) :
    (pipeline loader noModule inner).resolver data state = (.error error, state') := by
  change wrapResolver inner data state = _
  rw [wrapResolver, h]

theorem createFrom_of_new {data final : ResolveData} {absMid : String} {found : ResolvedModule}
    {record : ModuleRecord} (hsound : Sound files fs work.resolver)
    (hbefore : beforeResolve loader noModule data = .ok final)
    (hmid : final.absMid = some absMid) (hunknown : work.graph.byAbsMid? absMid = none)
    (hfound : answer final (files.findResource fs (RequestParts.ofRequest final.request).specifier
      final.context) = .ok found)
    (hnew : work.graph.byIdentifier? found.request = none)
    (hrecord : createModule (carryIds final found) = some record) :
    ∃ cache, Sound files fs cache ∧
      (pipeline loader noModule (files.resolve fs)).createFrom data work =
        (.ok work.graph.size, ⟨(work.graph.add record).2, cache⟩) := by
  obtain ⟨cache, hresolve, hcache⟩ := hsound.exists_resolve_eq hfound
  refine ⟨cache, hcache, ?_⟩
  have hplace : (pipeline loader noModule (files.resolve fs)).place (carryIds final found)
      work.graph = .ok (work.graph.size, (work.graph.add record).2) := by
    have hnew : work.graph.byIdentifier? (carryIds final found).request = none := hnew
    simp only [place, hnew, plugins_pipeline, makeRecord, adapter, hrecord]
    rfl
  rw [createFrom_eq, beforeResolve_pipeline, hbefore]
  simp only [hmid, Option.bind_some, hunknown, resolver_of_ok hresolve, hplace]

theorem identifierAt?_reached {graph : ModuleGraph} (absMid : Option String) (i : Nat) :
    (Factory.reached graph idx absMid).identifierAt? i = graph.identifierAt? i := by
  cases absMid with
  | none => rfl
  | some absMid => exact ModuleGraph.identifierAt?_addAlias absMid i

theorem stems_reached {graph : ModuleGraph}
    (h : ∀ i record, graph.get? i = some record → record.Stems fs own) (absMid : Option String) :
    ∀ i record, (Factory.reached graph idx absMid).get? i = some record → record.Stems fs own := by
  cases absMid with
  | none => exact h
  | some absMid =>
    intro i record hrecord
    change (graph.addAlias idx absMid).2.get? i = some record at hrecord
    rw [ModuleGraph.get?_addAlias] at hrecord
    split at hrecord
    · obtain ⟨old, hold, rfl⟩ := Option.map_eq_some_iff.mp hrecord
      exact (h i old hold).reachedUnder absMid
    · exact h i record hrecord

theorem mem_of_beforeResolve {data final : ResolveData}
    (h : beforeResolve loader noModule data = .ok final)
    (hown : ∀ bare ∈ ownRequests noModule data.request, bare ∈ own)
    (hnamed : ∀ issuer, issuerContext? data = some issuer →
      AbsMid.resolve loader data.request issuer ∈ named) :
    final.request ∈ own ∪ named ∧ (final.request ∈ own ∨ final.absMid = some final.request) := by
  rcases request_cases h with hbare | ⟨issuer, hissuer, hrequest, hmid⟩
  · exact ⟨.inl (hown _ hbare), .inl (hown _ hbare)⟩
  · exact ⟨.inr (hrequest ▸ hnamed issuer hissuer), .inr hmid⟩

section Creation

variable {request : PlainRequest}
  (hown : ∀ bare ∈ ownRequests noModule request.request, bare ∈ own)
  (hnamed : ∀ issuer, issuerContext? request.data = some issuer →
    AbsMid.resolve loader request.request issuer ∈ named)

include hown hnamed

theorem stems_of_makeRecord {final : ResolveData} {found : ResolvedModule} {record : ModuleRecord}
    (hbefore : beforeResolve loader noModule request.data = .ok final)
    (hresource : found.resource ∈ fs.paths)
    (hidentifier : found.request =
      (RequestParts.ofRequest final.request).identifier found.resource)
    (hrecord : makeRecord (pipeline loader noModule (files.resolve fs)).plugins
      (carryIds final found) = .ok record) :
    record.Stems fs own ∧ record.request ∈ identifiersOf (own ∪ named) fs.paths := by
  have haliases : (carryIds final found).absMidAliases = [] :=
    absMidAliases_of_beforeResolve hbefore rfl
  obtain ⟨hrequest, hmid, -⟩ := ids_of_makeRecord hrecord haliases
  have hplace : record.resource = (carryIds final found).resource :=
    congrArg ModuleRecord.resource (unnamed_of_makeRecord hrecord)
  change record.resource = found.resource at hplace
  obtain ⟨hmem, horigin⟩ := mem_of_beforeResolve hbefore hown hnamed
  have hself : record.request = (RequestParts.ofRequest final.request).identifier found.resource :=
    hrequest.trans hidentifier
  refine ⟨⟨hplace ▸ hresource, final.request, ?_, hplace ▸ hself⟩, ?_⟩
  · rw [hmid]
    exact horigin
  · exact hself ▸ Set.mem_image2_of_mem hmem hresource

/-- A creation that succeeds keeps track of the modules; the one that it may add has an identifier
made of a request of the adapter's own or of the absolute id of the request. -/
theorem Tracked.createFrom (h : Tracked files fs own work)
    (hok : (pipeline loader noModule (files.resolve fs)).createFrom request.data work =
      (.ok idx, work')) :
    Tracked files fs own work' ∧ idx < work'.graph.size ∧
      work.graph.Extends (identifiersOf (own ∪ named) fs.paths) work'.graph := by
  have hconsistent : ((pipeline loader noModule (files.resolve fs)).createFrom
      request.data work).2.graph.Consistent := consistent_createFrom request h.consistent
  rw [hok] at hconsistent
  obtain ⟨final, hbefore, hcases⟩ := resolved_of_ok hok
  rw [beforeResolve_pipeline] at hbefore
  rcases hcases with ⟨absMid, -, hfound, rfl⟩ | ⟨-, resolved, hresolved, hplace⟩
  · obtain ⟨record, hrecord, -⟩ := (h.consistent.absMid _ _).mp hfound
    exact ⟨h, ModuleGraph.lt_size_of_get? hrecord, .of_eq fun _ => rfl⟩
  · obtain ⟨found, hinner, rfl⟩ := resolver_eq_ok hresolved
    obtain ⟨hresource, hidentifier, hsound⟩ := h.sound.of_resolve_eq_ok hinner
    rcases place_eq_ok hplace with ⟨hknown, hgraph⟩ | ⟨hnew, record, hrecord, rfl, hgraph⟩
    · -- the identifier is known
      obtain ⟨record, hrecord, -⟩ := (h.consistent.identifier _ _).mp hknown
      have hextends : work.graph.Extends (identifiersOf (own ∪ named) fs.paths) work'.graph := by
        rw [hgraph]
        exact .of_eq (identifierAt?_reached _)
      refine ⟨⟨hconsistent, hsound, ?_⟩, ?_, hextends⟩
      · rw [hgraph]
        exact stems_reached h.stems _
      · exact Nat.lt_of_lt_of_le (ModuleGraph.lt_size_of_get? hrecord) hextends.size_le
    · obtain ⟨hstems, hmem⟩ :=
        stems_of_makeRecord hown hnamed hbefore hresource hidentifier hrecord
      refine ⟨⟨hconsistent, hsound, fun i other hother => ?_⟩, ?_, ?_⟩
      · rw [hgraph, ModuleGraph.get?_add] at hother
        split at hother
        · exact Option.some.inj hother ▸ hstems
        · exact h.stems i other hother
      · rw [hgraph, ModuleGraph.size_add]
        exact Nat.lt_succ_self _
      · rw [hgraph]
        exact .add record hmem

end Creation

end Dojo
end AmdBundle
