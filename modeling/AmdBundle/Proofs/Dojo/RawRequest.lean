import AmdBundle.FileSystem.Tree
import AmdBundle.Proofs.Dojo.Origin
import AmdBundle.Proofs.Factory.Places
import AmdBundle.Proofs.Resolver.Identifier

/-!
# AmdBundle.Proofs.Dojo.RawRequest — the request that a record keeps

Beside the request that the resolver got a record keeps one as the source has it.  The adapter
remembers it where it puts the absolute id in its place; where it takes a marker off, and where it
sends a pseudo-module to the stand-in, it does not, and then the resolver takes the request that it
gets for the one in the source.  What a record keeps is `keptRequest` (`rawRequest_of_added`).
-/

namespace AmdBundle

namespace AbsMid.Marker

theorem length_lt_of_find? {cs before value : List Char} (h : find? cs = some (before, value)) :
    before.length < cs.length := by
  induction cs generalizing before with
  | nil => simp [find?] at h
  | cons c cs ih =>
    rw [find?] at h
    split at h
    · rename_i rest tail hrest
      obtain ⟨rfl, rfl⟩ := Prod.mk.inj (Option.some.inj h)
      exact Nat.succ_lt_succ (ih hrest)
    · obtain ⟨tail, -, hpair⟩ := Option.map_eq_some_iff.mp h
      obtain ⟨rfl, -⟩ := Prod.mk.inj hpair
      exact Nat.succ_pos _

theorem ne_of_detach {request bare absMid : String}
    (h : detach request = .ok (some (bare, absMid))) : bare ≠ request := by
  unfold detach at h
  split at h
  · simp at h
  · rename_i before value hfind
    split at h
    · simp at h
    · obtain ⟨hbare, -⟩ := Prod.mk.inj (Option.some.inj (Except.ok.inj h))
      have hlt := length_lt_of_find? hfind
      rintro rfl
      rw [← hbare, String.toList_ofList] at hlt
      exact Nat.lt_irrefl _ hlt

end AbsMid.Marker

/-! ### The record that a creation adds -/

namespace Factory

variable {σ : Type} {factory : Factory σ} {data : ResolveData} {work : Workspace σ}
  {record : ModuleRecord}

/-- A record that is added is made of what the resolver says to the request as the plugins leave it.
-/
theorem exists_of_added
    (h : (factory.createFrom data work).2.graph.modules = work.graph.modules ++ [record]) :
    ∃ final resolved state, beforeResolve factory.plugins data = .ok final ∧
      factory.resolver final work.resolver = (.ok resolved, state) ∧
      makeRecord factory.plugins resolved = .ok record := by
  rcases hrun : factory.createFrom data work with ⟨result, after⟩
  rw [hrun] at h
  change after.graph.modules = work.graph.modules ++ [record] at h
  have hgrown : after.graph.size ≠ work.graph.size := by
    rw [ModuleGraph.size, ModuleGraph.size, h, List.length_append]
    simp
  cases result with
  | error error => exact absurd (congrArg ModuleGraph.size (graph_eq_of_error hrun)) hgrown
  | ok idx =>
    obtain ⟨final, hbefore, hcases⟩ := resolved_of_ok hrun
    rcases hcases with ⟨-, -, -, rfl⟩ | ⟨-, resolved, hresolved, hplace⟩
    · exact absurd rfl hgrown
    · rcases place_eq_ok hplace with ⟨-, hgraph⟩ | ⟨-, made, hmade, -, hgraph⟩
      · rw [hgraph, size_reached] at hgrown
        exact absurd rfl hgrown
      · rw [hgraph] at h
        obtain rfl : made = record := by
          simpa [ModuleGraph.add] using h
        exact ⟨final, resolved, _, hbefore, hresolved, hmade⟩

end Factory

namespace Dojo

open Factory FileResolver

variable {σ : Type} {loader : Loader} {noModule : String} {inner : Resolver σ}

/-! ### The request on its way -/

/-- Whether the adapter sends a request to the stand-in. -/
def NamesPseudo (request : String) : Prop :=
  request = PseudoModule.require.id ∨ request = PseudoModule.module.id

instance (request : String) : Decidable (NamesPseudo request) :=
  inferInstanceAs (Decidable (_ ∨ _))

/-- What a record keeps of a request: what is before its marker, the stand-in, or all of it. -/
def keptRequest (noModule request : String) : String :=
  match AbsMid.Marker.detach request with
  | .ok (some (bare, _)) => bare
  | _ => if NamesPseudo request then noModule else request

/-- All of a request is kept exactly if it has no marker and there is no stand-in for it. -/
theorem keptRequest_eq_iff (noModule request : String) :
    keptRequest noModule request = request ↔
      (∀ bare absMid, AbsMid.Marker.detach request ≠ .ok (some (bare, absMid))) ∧
        (NamesPseudo request → noModule = request) := by
  unfold keptRequest
  split
  · rename_i bare absMid hdetach
    refine ⟨fun hsame => absurd hsame (AbsMid.Marker.ne_of_detach hdetach), fun h => ?_⟩
    exact absurd hdetach (h.1 bare absMid)
  · rename_i hunmarked
    by_cases hpseudo : NamesPseudo request
    · rw [if_pos hpseudo]
      exact ⟨fun hsame => ⟨hunmarked, fun _ => hsame⟩, fun h => h.2 hpseudo⟩
    · rw [if_neg hpseudo]
      exact ⟨fun _ => ⟨hunmarked, fun hnames => absurd hnames hpseudo⟩, fun _ => rfl⟩

theorem rawRequest_of_beforeResolve {data final : ResolveData}
    (h : beforeResolve loader noModule data = .ok final) (hdata : data.rawRequest = none) :
    final.rawRequest.getD final.request = keptRequest noModule data.request := by
  unfold beforeResolve at h
  unfold keptRequest
  split at h
  · simp at h
  · rename_i bare absMid hdetach
    obtain rfl := Except.ok.inj h
    rw [hdetach, hdata, Option.getD_none]
  · rename_i hdetach
    rw [hdetach]
    by_cases hpseudo : NamesPseudo data.request
    · obtain rfl : _ = final := Except.ok.inj ((if_pos hpseudo).symm.trans h)
      rw [hdata, Option.getD_none]
      exact (if_pos hpseudo).symm
    · replace h := (if_neg hpseudo).symm.trans h
      refine Eq.trans ?_ (if_neg hpseudo).symm
      cases hissuer : issuerContext? data with
      | none =>
        rw [hissuer] at h
        obtain rfl := Except.ok.inj h
        rw [hdata, Option.getD_none]
      | some issuer =>
        rw [hissuer] at h
        obtain rfl := Except.ok.inj h
        unfold readdress
        dsimp only
        split
        · rw [hdata, Option.getD_none]
        · rw [Option.getD_some]

theorem rawRequest_of_resolver {files : FileResolver} {fs : FileSystem} {data : ResolveData}
    {cache after : Cache} {resolved : ResolvedModule}
    (h : (pipeline loader noModule (files.resolve fs)).resolver data cache =
      (.ok resolved, after)) :
    resolved.rawRequest = data.rawRequest.getD data.request := by
  obtain ⟨found, hfound, rfl⟩ := resolver_eq_ok h
  obtain ⟨resource, rfl⟩ := exists_of_resolve hfound
  show data.rawRequest.getD (data.rawRequest.getD data.request) = _
  cases data.rawRequest <;> rfl

/-- **The request in the source.**  Whatever the graph and the file system, a record that a creation
adds keeps what is before the marker of its request, or the stand-in for a pseudo-module, and else
the request that was given; so it keeps the request that was given exactly if this has no marker and
is not the id of a pseudo-module that the stand-in goes by another name than. -/
theorem rawRequest_of_added {files : FileResolver} {fs : FileSystem} {request : PlainRequest}
    {work : Workspace Cache} {record : ModuleRecord}
    (h : ((pipeline loader noModule (files.resolve fs)).createFrom request.data
      work).2.graph.modules = work.graph.modules ++ [record]) :
    record.rawRequest = keptRequest noModule request.request ∧
      (record.rawRequest = request.request ↔
        (∀ bare absMid, AbsMid.Marker.detach request.request ≠ .ok (some (bare, absMid))) ∧
          (NamesPseudo request.request → noModule = request.request)) := by
  obtain ⟨final, resolved, after, hbefore, hresolved, hrecord⟩ := exists_of_added h
  rw [beforeResolve_pipeline] at hbefore
  have hkept : record.rawRequest = keptRequest noModule request.request :=
    calc record.rawRequest = resolved.rawRequest :=
          congrArg ModuleRecord.rawRequest (unnamed_of_makeRecord hrecord)
      _ = final.rawRequest.getD final.request := rawRequest_of_resolver hresolved
      _ = keptRequest noModule request.request := rawRequest_of_beforeResolve hbefore rfl
  refine ⟨hkept, ?_⟩
  rw [hkept]
  exact keptRequest_eq_iff noModule request.request

/-! ### A neighbour and the stand-in -/

section TwoScripts

def twoScripts : FileTree where
  files := [(["p", "a.js"], .empty), (["rt", "No.js"], .empty)]
  dirs := [["p"], ["rt"]]

/-- What the first request of a graph leads to. -/
def firstCreated (request : PlainRequest) : Except Error Nat × Workspace Cache :=
  (pipeline plainLoader "/rt/No.js"
    (resolve ⟨[("p", "/p")], none⟩ twoScripts.fileSystem)).createFrom request.data ⟨.empty, []⟩

def mainRequest (request : String) : PlainRequest :=
  ⟨"/p", request, [.amdItem ⟨some "p/main", "/p/main.js"⟩]⟩

/-- The module as `p/main` names it: the resolver gets the absolute id. -/
def neighbourRecord : ModuleRecord where
  request := "/p/a.js"
  userRequest := "p/a"
  rawRequest := "./a"
  resource := "/p/a.js"
  absMid := some "p/a"

/-- The neighbour keeps its relative request, as there is neither a marker nor a stand-in. -/
theorem rawRequest_of_added_neighbour :
    (firstCreated (mainRequest "./a")).2.graph.modules = [] ++ [neighbourRecord] ∧
      neighbourRecord.rawRequest = "./a" := by
  have hadded : (firstCreated (mainRequest "./a")).2.graph.modules = [] ++ [neighbourRecord] := by
    decide +kernel
  have hunmarked : AbsMid.Marker.detach "./a" = .ok none := by decide +kernel
  refine ⟨hadded, (rawRequest_of_added hadded).2.mpr ⟨fun bare absMid => ?_, ?_⟩⟩
  · show AbsMid.Marker.detach "./a" ≠ _
    rw [hunmarked]
    simp
  · show NamesPseudo "./a" → _
    decide +kernel

/-- The module that stands in for `require`. -/
def standInRecord : ModuleRecord where
  request := "/rt/No.js"
  userRequest := "/rt/No.js"
  rawRequest := "/rt/No.js"
  resource := "/rt/No.js"
  absMid := some "require"

/-- The request for `require` is not kept, although it is in the source as it was given. -/
theorem rawRequest_pseudoModule :
    (firstCreated (mainRequest "require")).2.graph.modules = [] ++ [standInRecord] ∧
      standInRecord.rawRequest ≠ (mainRequest "require").request := by
  decide +kernel

end TwoScripts

end Dojo
end AmdBundle
