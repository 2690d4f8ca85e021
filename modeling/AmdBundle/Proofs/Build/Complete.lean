import AmdBundle.Proofs.AbsMid.Separators
import AmdBundle.Proofs.Build.Site
import AmdBundle.Proofs.Build.Turns
import AmdBundle.Proofs.Graph.Order

/-!
# AmdBundle.Proofs.Build.Complete — graphs with all that the entry needs

A build that succeeds has handled every module of its graph, one after the other in the order of
their places, and every module but the entry is needed by one before it (`build_complete`).  This
holds whatever the hooks, the plugins, the resolver and the programs are.
-/

namespace AmdBundle

open Relation

namespace ModuleGraph

variable {graph graph' : ModuleGraph} {i j : Nat}

theorem DependsOn.of_unnamed_eq (h : graph.DependsOn i j) (hsize : graph.size ≤ graph'.size)
    (hkept : (graph'.get? i).map ModuleRecord.unnamed = (graph.get? i).map ModuleRecord.unnamed) :
    graph'.DependsOn i j := by
  obtain ⟨record, hget, hmem, hlt⟩ := h
  rw [hget, Option.map_some] at hkept
  obtain ⟨record', hget', hsame⟩ := Option.map_eq_some_iff.mp hkept
  have hdependencies := ModuleRecord.dependencies_eq_of_unnamed_eq hsame
  exact ⟨record', hget', hdependencies ▸ hmem, Nat.lt_of_lt_of_le hlt hsize⟩

/-- Where every module but the first is needed by one before it, all are reached from the first. -/
theorem reached_of_needed (h : ∀ j, 0 < j → j < graph.size → ∃ i < j, graph.DependsOn i j)
    (hj : j < graph.size) : ReflTransGen graph.DependsOn 0 j := by
  induction j using Nat.strongRecOn with
  | ind j ih =>
    rcases Nat.eq_zero_or_pos j with rfl | hpos
    · exact .refl
    · obtain ⟨i, hlt, hdepends⟩ := h j hpos hj
      exact (ih i hlt hdepends.lt_size.1).tail hdepends

end ModuleGraph

namespace Build

variable {σ : Type} {build : Build σ} {state next : BuildState σ} {past : List (Turn σ)}
  {idx : Nat} {queue : List Nat} {record : ModuleRecord}

/-- What is in a graph of a module whose turn it was: its file has been walked and all its requests
have been given places, which are its dependencies, each where it came up first; what else there is
about it is as it was, but for more ids. -/
def Settled (build : Build σ) (turn : Turn σ) (graph : ModuleGraph) : Prop :=
  ∃ (walked : FileOutput) (created : List Nat) (record : ModuleRecord),
    build.walkModule turn.record = .ok walked ∧
    (build.factory.createEach (walked.dependencies.filterMap (requestData? turn.record.context))
      turn.work).1 = created.map .ok ∧
    graph.get? turn.idx = some record ∧
    record.dependencies = created.eraseDups ∧
    record.unnamed = (finished walked created.eraseDups turn.record).unnamed ∧
    record.dependencies.Nodup ∧ ∀ place ∈ record.dependencies, place < graph.size

/-- The graph of a build, by the turns that it has taken. -/
structure Complete (build : Build σ) (turns : List (Turn σ)) (output : BuildOutput) : Prop where
  entry_eq : output.entry = 0
  entry_lt : output.entry < output.graph.size
  /-- Every module has had its turn, in the order of places and once. -/
  order : turns.map Turn.idx = List.range output.graph.size
  settled : ∀ turn ∈ turns, build.Settled turn output.graph
  /-- Every module but the entry is needed by one before it. -/
  needed : ∀ j, 0 < j → j < output.graph.size → ∃ i < j, output.graph.DependsOn i j
  reached : ∀ j < output.graph.size, ReflTransGen output.graph.DependsOn output.entry j

theorem Settled.of_unnamed_eq {turn : Turn σ} {graph graph' : ModuleGraph}
    (h : build.Settled turn graph) (hsize : graph.size ≤ graph'.size)
    (hkept : (graph'.get? turn.idx).map ModuleRecord.unnamed =
      (graph.get? turn.idx).map ModuleRecord.unnamed) : build.Settled turn graph' := by
  obtain ⟨walked, created, record, hwalk, hcreated, hget, hplaces, hrest, hnodup, hlt⟩ := h
  rw [hget, Option.map_some] at hkept
  obtain ⟨record', hget', hsame⟩ := Option.map_eq_some_iff.mp hkept
  have hdependencies := ModuleRecord.dependencies_eq_of_unnamed_eq hsame
  refine ⟨walked, created, record', hwalk, hcreated, hget', ?_, ?_, ?_, ?_⟩
  · exact hdependencies.trans hplaces
  · exact hsame.trans hrest
  · rw [hdependencies]
    exact hnodup
  · rw [hdependencies]
    exact fun place hplace => Nat.lt_of_lt_of_le (hlt place hplace) hsize

theorem Handles.settled (h : build.Handles state idx queue record next)
    (hgraph : state.work.graph.InRange) :
    build.Settled ⟨idx, record, state.work⟩ next.work.graph := by
  obtain ⟨walked, created, work, hwalk, hcreate, hgrown, hwork, -, -⟩ := h.grown hgraph
  obtain ⟨old, hold⟩ :=
    ModuleGraph.exists_get?_of_lt_size (Nat.lt_of_lt_of_le h.lt_size hgrown.size_le)
  have hsame : old.unnamed = record.unnamed := by
    have hmap := hgrown.kept idx h.lt_size
    rwa [hold, h.found, Option.map_some, Option.map_some, Option.some.injEq] at hmap
  have hnodup : created.eraseDups.Nodup := by
    rw [← foldl_insertNew]
    exact nodup_foldl_insertNew List.nodup_nil created
  refine ⟨walked, created, finished walked created.eraseDups old, hwalk, by rw [hcreate], ?_, rfl,
    ?_, hnodup, ?_⟩
  · rw [hwork, ModuleGraph.get?_modify, if_pos rfl, hold, Option.map_some]
  · exact congrArg (finished walked created.eraseDups) hsame
  · rw [hwork, ModuleGraph.size_modify]
    exact hgrown.lt_size

theorem Handles.dependsOn_new (h : build.Handles state idx queue record next)
    (hgraph : state.work.graph.InRange) {j : Nat} (hnew : state.work.graph.size ≤ j)
    (hj : j < next.work.graph.size) : next.work.graph.DependsOn idx j := by
  obtain ⟨walked, created, work, -, -, hgrown, hwork, -, -⟩ := h.grown hgraph
  obtain ⟨old, hold⟩ :=
    ModuleGraph.exists_get?_of_lt_size (Nat.lt_of_lt_of_le h.lt_size hgrown.size_le)
  have hmem : j ∈ created.eraseDups := by
    have hrange : j ∈ created.eraseDups.filter (state.work.graph.size ≤ ·) := by
      rw [hwork, ModuleGraph.size_modify] at hj
      rw [hgrown.fresh, List.mem_range'_1]
      omega
    exact (List.mem_filter.mp hrange).1
  refine ⟨finished walked created.eraseDups old, ?_, hmem, hj⟩
  rw [hwork, ModuleGraph.get?_modify, if_pos rfl, hold, Option.map_some]

/-- What holds when the turns have been taken: those who had them are settled, and every module
there is is needed by one of these before it. -/
structure CompleteSoFar (build : Build σ) (past : List (Turn σ)) (state : BuildState σ) : Prop where
  settled : ∀ turn ∈ past, build.Settled turn state.work.graph
  needed : ∀ j, 0 < j → j < state.work.graph.size →
    ∃ i < past.length, i < j ∧ state.work.graph.DependsOn i j

theorem completeSoFar_start {entry : String} {resolver : σ}
    (h : build.start entry resolver = .ok (idx, state)) : CompleteSoFar build [] state := by
  obtain ⟨-, -, hsize⟩ := inOrder_start h
  refine ⟨by simp, fun j hpos hlt => ?_⟩
  rw [hsize] at hlt
  omega

theorem CompleteSoFar.step (h : CompleteSoFar build past state) (horder : InOrder past state)
    (hhandles : build.Handles state past.length queue record next) :
    CompleteSoFar build (past ++ [⟨past.length, record, state.work⟩]) next := by
  have hlt := hhandles.lt_size
  obtain ⟨hle, hkept⟩ := hhandles.unnamed_get? horder.inRange
  refine ⟨fun turn hturn => ?_, fun j hpos hj => ?_⟩
  · rcases List.mem_append.mp hturn with hpast | hnow
    · have hidx : turn.idx ∈ List.range past.length := by
        rw [← horder.places]
        exact List.mem_map_of_mem hpast
      have hbefore := List.mem_range.mp hidx
      refine (h.settled turn hpast).of_unnamed_eq hle ?_
      exact hkept turn.idx (Nat.lt_trans hbefore hlt) (Nat.ne_of_lt hbefore)
    · obtain rfl := List.mem_singleton.mp hnow
      exact hhandles.settled horder.inRange
  · rw [List.length_append, List.length_singleton]
    rcases Nat.lt_or_ge j state.work.graph.size with hold | hnew
    · obtain ⟨i, hi, hij, hdepends⟩ := h.needed j hpos hold
      refine ⟨i, Nat.lt_succ_of_lt hi, hij, hdepends.of_unnamed_eq hle ?_⟩
      exact hkept i (Nat.lt_trans hi hlt) (Nat.ne_of_lt hi)
    · exact ⟨past.length, Nat.lt_succ_self _, Nat.lt_of_lt_of_le hlt hnew,
        hhandles.dependsOn_new horder.inRange hnew hj⟩

/-- **Completeness.**  A build that succeeds has handled all modules of its graph in the order of
their places, each once; each depends on the modules created for its requests, in the order in which
they came up first, and all but the entry are needed by one before them. -/
theorem build_complete {fuel : Nat} {entry : String} {resolver : σ} {output : BuildOutput}
    (h : build.build? fuel entry resolver = some (.ok output)) :
    build.Complete (build.turns fuel entry resolver) output := by
  obtain ⟨last, ⟨hlast, hzero⟩, hgraph, hpos, hturns⟩ := turns_induct
    (P := fun past state => CompleteSoFar build past state ∧ output.entry = 0) h
    (fun state hstart => ⟨completeSoFar_start hstart, (inOrder_start hstart).2.1⟩)
    (fun past state next queue record horder hsofar hhandles =>
      ⟨hsofar.1.step horder hhandles, hsofar.2⟩)
  have hneeded : ∀ j, 0 < j → j < output.graph.size → ∃ i < j, output.graph.DependsOn i j := by
    intro j hpos hj
    rw [← hgraph] at hj ⊢
    obtain ⟨i, -, hij, hdepends⟩ := hlast.needed j hpos hj
    exact ⟨i, hij, hdepends⟩
  refine ⟨hzero, hzero ▸ hpos, hturns, hgraph ▸ hlast.settled, hneeded, ?_⟩
  rw [hzero]
  exact fun j hj => ModuleGraph.reached_of_needed hneeded hj

end Build

/-! ### A file that gets its absolute id late -/

namespace Site

open AbsMid

/-- Two files, of which the first asks for the second and then for itself; it has no absolute id
until that request is created. -/
def lateId : Site where
  cwd := "/"
  files := { baseDir := some "/" }
  disk := FileTree.finite { files := [(["a.js"], .empty), (["c.js"], .empty)], dirs := [] }
  options := { noModule := "/no.js" }
  loader := unconfigured
  program path :=
    if path = "/a.js" then
      [.expr (.call 0 {} "require"
        [.array {} [.str {} "./c", .str {} "a", .str {} "./c"]])]
    else []

def lateIdOutput : BuildOutput where
  graph := {
    modules := [
      { request := "/a.js", userRequest := "./a", rawRequest := "./a", resource := "/a.js"
        absMid := some "a", dependencies := [1, 0] },
      { request := "/c.js", userRequest := "/c", rawRequest := "./c", resource := "/c.js"
        absMid := some "/c" }]
    identifiers := [("/c.js", 1), ("/a.js", 0)]
    absMids := [("/c", 1), ("a", 0)] }
  entry := 0
  warnings := []

theorem build?_lateId : lateId.build.build? 2 "./a" [] = some (.ok lateIdOutput) := by
  decide +kernel

theorem complete_lateId : lateId.build.build? 2 "./a" [] = some (.ok lateIdOutput) ∧
    lateId.build.Complete (lateId.build.turns 2 "./a" []) lateIdOutput :=
  ⟨build?_lateId, Build.build_complete build?_lateId⟩

end Site
end AmdBundle
