import AmdBundle.Proofs.Build.Complete
import AmdBundle.Proofs.Factory.AddedIds

/-!
# AmdBundle.Proofs.Build.ParsedIds — the ids that modules are parsed under

The file of a module is walked under the absolute id that its record has when its turn comes.  A
record that has none then may still get one, from a request of its own file or of a later one; the
file is not walked again.  So the id in the graph is the one that the file was walked under, or else
the first one that was added from then on (`absMid_of_build`), and there are files for which the two
differ (`Site.lateId_parsed_without_id`).
-/

namespace AmdBundle

variable {σ : Type}

def Turn.identity (turn : Turn σ) : ModuleIdentity :=
  ⟨turn.record.absMid, turn.record.request⟩

namespace Build

variable {build : Build σ} {state next : BuildState σ} {past : List (Turn σ)} {idx : Nat}
  {queue : List Nat} {record : ModuleRecord}

/-- The requests that the program of a module makes, in order. -/
def requestsOf (build : Build σ) (record : ModuleRecord) : List ResolveData :=
  match build.walkModule record with
  | .ok walked => walked.dependencies.filterMap (requestData? record.context)
  | .error _ => []

/-- The ids that a module gets by the requests made in these turns, in order. -/
def addedIds (build : Build σ) (idx : Nat) (turns : List (Turn σ)) : List String :=
  turns.flatMap fun turn =>
    build.factory.addedIds idx (build.requestsOf turn.record) turn.work

/-- The program of the module has been walked to its end as that of the module with the identity. -/
def ParsedUnder (build : Build σ) (record : ModuleRecord) (identity : ModuleIdentity) : Prop :=
  ∃ nodes walked, build.source record = .ok nodes ∧
    FileState.walk build.hooks nodes { identity } = (.ok (), walked)

theorem parsedUnder_of_walkModule {walked : FileOutput} (h : build.walkModule record = .ok walked) :
    build.ParsedUnder record ⟨record.absMid, record.request⟩ := by
  unfold walkModule at h
  split at h
  · simp at h
  · rename_i nodes hsource
    dsimp only at h
    split at h
    · simp at h
    · rename_i state hwalk
      exact ⟨nodes, state, hsource, hwalk⟩

/-- What holds when the turns have been taken: a module that has had its turn has the id that it had
then, or else the first one added since. -/
structure NamedSoFar (build : Build σ) (past : List (Turn σ)) (state : BuildState σ) : Prop where
  parsed : ∀ turn ∈ past, build.ParsedUnder turn.record turn.identity
  absMid : ∀ i turn record, past[i]? = some turn → state.work.graph.get? i = some record →
    record.absMid = turn.record.absMid.or (build.addedIds i (past.drop i)).head?

/-- The requests of a turn leave a module its id, or give it the first one that they add. -/
theorem Handles.absMid_eq (h : build.Handles state idx queue record next)
    (hgraph : state.work.graph.InRange) {i : Nat} {old new : ModuleRecord}
    (hold : state.work.graph.get? i = some old) (hnew : next.work.graph.get? i = some new) :
    new.absMid = old.absMid.or (build.addedIds i [⟨idx, record, state.work⟩]).head? := by
  obtain ⟨walked, created, work, hwalk, hcreate, -, hwork, -, -⟩ := h.grown hgraph
  have hrequests : build.requestsOf record =
      walked.dependencies.filterMap (requestData? record.context) := by
    rw [requestsOf, hwalk]
  have hafter : ((build.factory.createEach (build.requestsOf record) state.work).2.graph.get? i).map
      ModuleRecord.absMid = _ := Factory.absMid_createEach hold (build.requestsOf record)
  have hadded : build.addedIds i [⟨idx, record, state.work⟩] =
      build.factory.addedIds i (build.requestsOf record) state.work := by
    rw [addedIds, List.flatMap_singleton]
  rw [hrequests, hcreate, ← hrequests, ← hadded] at hafter
  obtain ⟨after, hget, hmid⟩ := Option.map_eq_some_iff.mp hafter
  rw [hwork, ModuleGraph.get?_modify, hget] at hnew
  rw [← hmid]
  split at hnew <;> obtain rfl := Option.some.inj hnew <;> rfl

theorem NamedSoFar.step (h : NamedSoFar build past state) (hgraph : state.work.graph.InRange)
    (hhandles : build.Handles state past.length queue record next) :
    NamedSoFar build (past ++ [⟨past.length, record, state.work⟩]) next := by
  obtain ⟨walked, -, -, hwalk, -⟩ := hhandles.grown hgraph
  refine ⟨fun turn hturn => ?_, fun i turn new hturn hnew => ?_⟩
  · rcases List.mem_append.mp hturn with hpast | hnow
    · exact h.parsed turn hpast
    · obtain rfl := List.mem_singleton.mp hnow
      exact parsedUnder_of_walkModule hwalk
  · rcases Nat.lt_trichotomy i past.length with hbefore | rfl | hbehind
    · -- a module that has had its turn before
      rw [List.getElem?_append_left hbefore] at hturn
      obtain ⟨old, hold⟩ :=
        ModuleGraph.exists_get?_of_lt_size (Nat.lt_trans hbefore hhandles.lt_size)
      rw [hhandles.absMid_eq hgraph hold hnew, h.absMid i turn old hturn hold, Option.or_assoc,
        List.drop_append_of_le_length (Nat.le_of_lt hbefore), addedIds, addedIds, addedIds,
        List.flatMap_append, List.head?_append]
    · -- the module whose turn it is
      rw [List.getElem?_concat_length] at hturn
      obtain rfl := Option.some.inj hturn
      rw [hhandles.absMid_eq hgraph hhandles.found hnew, List.drop_left]
    · rw [List.getElem?_eq_none (by rw [List.length_append, List.length_singleton]; omega)] at hturn
      simp at hturn

/-- **Parsed ids.**  In a build that succeeds the file of every module is walked once, under the
absolute id that the module has in the end, unless it had none when its turn came and one was added
to it from then on: then the file is walked under no id, and the module has the first one added. -/
theorem absMid_of_build {fuel : Nat} {entry : String} {resolver : σ} {output : BuildOutput}
    (h : build.build? fuel entry resolver = some (.ok output))
    (hget : output.graph.get? idx = some record) :
    ∃ turn, (build.turns fuel entry resolver)[idx]? = some turn ∧ turn.idx = idx ∧
      build.ParsedUnder turn.record turn.identity ∧
      record.absMid = turn.identity.absMid.or
        (build.addedIds idx ((build.turns fuel entry resolver).drop idx)).head? ∧
      (turn.identity.absMid = record.absMid ↔
        turn.identity.absMid ≠ none ∨
          build.addedIds idx ((build.turns fuel entry resolver).drop idx) = []) := by
  obtain ⟨last, hlast, hgraph, -, hturns⟩ := turns_induct (P := NamedSoFar build) h
    (fun _ _ => ⟨by simp, by simp⟩)
    (fun past state next queue record horder hnamed hhandles =>
      hnamed.step horder.inRange hhandles)
  have hplace : ((build.turns fuel entry resolver)[idx]?).map Turn.idx = some idx := by
    rw [← List.getElem?_map, hturns, List.getElem?_range (ModuleGraph.lt_size_of_get? hget)]
  obtain ⟨turn, hturn, hidx⟩ := Option.map_eq_some_iff.mp hplace
  have hmid : record.absMid = turn.identity.absMid.or
      (build.addedIds idx ((build.turns fuel entry resolver).drop idx)).head? := by
    rw [← hgraph] at hget
    exact hlast.absMid idx turn record hturn hget
  refine ⟨turn, hturn, hidx, hlast.parsed turn (List.mem_of_getElem? hturn), hmid, ?_⟩
  rw [hmid]
  cases turn.identity.absMid with
  | some own => simp
  | none =>
    rw [Option.none_or, eq_comm, List.head?_eq_none_iff]
    simp

end Build

namespace Site

theorem get?_lateIdOutput : lateIdOutput.graph.get? 0 = some
    { request := "/a.js", userRequest := "./a", rawRequest := "./a", resource := "/a.js"
      absMid := some "a", dependencies := [1, 0] } := rfl

theorem absMid_lateId :
    lateId.build.build? 2 "./a" [] = some (.ok lateIdOutput) ∧
      ∃ turn, (lateId.build.turns 2 "./a" [])[0]? = some turn ∧ turn.idx = 0 ∧
        lateId.build.ParsedUnder turn.record turn.identity ∧
        some "a" = turn.identity.absMid.or ["a"].head? ∧
        (turn.identity.absMid = some "a" ↔ turn.identity.absMid ≠ none ∨ ["a"] = []) := by
  have hadded : lateId.build.addedIds 0 ((lateId.build.turns 2 "./a" []).drop 0) = ["a"] := by
    decide +kernel
  refine ⟨build?_lateId, ?_⟩
  rw [← hadded]
  exact Build.absMid_of_build build?_lateId get?_lateIdOutput

/-- The entry has no id when its file is walked; what it asks for has the one that goes with its
path. -/
theorem turns_lateId :
    (lateId.build.turns 2 "./a" []).map (fun turn =>
      (turn.idx, turn.identity, (lateId.build.walkModule turn.record).toOption.isSome)) =
      [(0, ⟨none, "/a.js"⟩, true), (1, ⟨some "/c", "/c.js"⟩, true)] := by
  decide +kernel

/-- An id may come too late for the walk: the file has been walked under none, though its module has
one in the end. -/
theorem lateId_parsed_without_id :
    lateId.build.build? 2 "./a" [] = some (.ok lateIdOutput) ∧
      ∃ turn ∈ lateId.build.turns 2 "./a" [], ∃ record,
        lateIdOutput.graph.get? turn.idx = some record ∧
        lateId.build.ParsedUnder turn.record turn.identity ∧
        turn.identity.absMid = none ∧ record.absMid = some "a" := by
  refine ⟨build?_lateId, ?_⟩
  have hhead : (0, ⟨none, "/a.js"⟩, true) ∈ (lateId.build.turns 2 "./a" []).map (fun turn =>
      (turn.idx, turn.identity, (lateId.build.walkModule turn.record).toOption.isSome)) := by
    rw [turns_lateId]
    exact List.mem_cons_self
  obtain ⟨turn, hmem, heq⟩ := List.mem_map.mp hhead
  simp only [Prod.mk.injEq] at heq
  obtain ⟨hidx, hidentity, hwalked⟩ := heq
  refine ⟨turn, hmem, _, by rw [hidx]; exact get?_lateIdOutput, ?_, by rw [hidentity], rfl⟩
  cases hwalk : lateId.build.walkModule turn.record with
  | error error => simp [hwalk, Except.toOption] at hwalked
  | ok walked => exact Build.parsedUnder_of_walkModule hwalk

end Site
end AmdBundle
