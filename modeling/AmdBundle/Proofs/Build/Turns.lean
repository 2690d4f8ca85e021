import AmdBundle.Proofs.Build.Growth

/-!
# AmdBundle.Proofs.Build.Turns — one module after the other

The modules that a build handles, each with the workspace in which its turn came (`turns`).  Turns
come in the order of places: when `n` modules have been handled these are the first `n`, and the
queue is all others (`InOrder`).

What holds of the turns so far and the state they have led to is carried from the start to the end
of a build that succeeds by `turns_induct`.
-/

namespace AmdBundle

variable {σ : Type}

/-- A module whose turn it is: its place, its record, and the workspace that it is handled in. -/
structure Turn (σ : Type) where
  idx : Nat
  record : ModuleRecord
  work : Workspace σ

def BuildState.turn? (state : BuildState σ) : Option (Turn σ) :=
  match state.queue with
  | [] => none
  | idx :: _ => (state.work.graph.get? idx).map fun record => ⟨idx, record, state.work⟩

namespace Build

/-- The modules handled from a state on, with so much fuel. -/
def turnsFrom (build : Build σ) : Nat → BuildState σ → List (Turn σ)
  | 0, _ => []
  | fuel + 1, state =>
    match build.next? state with
    | none => []
    | some next => state.turn?.toList ++ turnsFrom build fuel next

def turns (build : Build σ) (fuel : Nat) (entry : String) (resolver : σ) : List (Turn σ) :=
  match build.start entry resolver with
  | .ok (_, state) => build.turnsFrom fuel state
  | .error _ => []

variable {build : Build σ} {state next last : BuildState σ} {past : List (Turn σ)} {idx : Nat}
  {queue : List Nat} {record : ModuleRecord}

/-! ### Induction along the turns -/

theorem queue_eq_nil_of_step (h : build.step state = .ok none) : state.queue = [] := by
  unfold step at h
  split at h
  · assumption
  · dsimp only at h
    split at h
    · simp at h
    · split at h <;> simp at h

theorem run_induct {P : List (Turn σ) → BuildState σ → Prop}
    (hnext : ∀ past state next, P past state → build.next? state = some next →
      P (past ++ state.turn?.toList) next)
    {fuel : Nat} (h : P past state) (hrun : build.run fuel state = .done last) :
    P (past ++ build.turnsFrom fuel state) last ∧ last.queue = [] := by
  induction fuel generalizing past state with
  | zero =>
    unfold run at hrun
    split at hrun
    · simp at hrun
    · rename_i hstep
      obtain rfl := Outcome.done.inj hrun
      rw [turnsFrom, List.append_nil]
      exact ⟨h, queue_eq_nil_of_step hstep⟩
    · simp at hrun
  | succ fuel ih =>
    unfold run at hrun
    split at hrun
    · simp at hrun
    · rename_i hstep
      obtain rfl := Outcome.done.inj hrun
      have hnone : build.next? state = none := by rw [next?, hstep]
      rw [turnsFrom, hnone, List.append_nil]
      exact ⟨h, queue_eq_nil_of_step hstep⟩
    · rename_i next hstep
      have hsome : build.next? state = some next := by rw [next?, hstep]
      rw [turnsFrom, hsome]
      dsimp only
      rw [← List.append_assoc]
      exact ih (hnext past state next h hsome) hrun

theorem build?_induct {P : List (Turn σ) → BuildState σ → Prop} {fuel : Nat} {entry : String}
    {resolver : σ} {output : BuildOutput}
    (h : build.build? fuel entry resolver = some (.ok output))
    (hstart : ∀ state, build.start entry resolver = .ok (output.entry, state) → P [] state)
    (hnext : ∀ past state next, P past state → build.next? state = some next →
      P (past ++ state.turn?.toList) next) :
    ∃ last, P (build.turns fuel entry resolver) last ∧ last.queue = [] ∧
      last.work.graph = output.graph := by
  unfold build? at h
  unfold turns
  cases hstarted : build.start entry resolver with
  | error error => simp [hstarted] at h
  | ok started =>
    obtain ⟨idx, state⟩ := started
    simp only [hstarted] at h
    cases hrun : build.run fuel state with
    | failed error => simp [hrun] at h
    | unfinished last => simp [hrun] at h
    | done last =>
      simp only [hrun, Option.some.injEq, Except.ok.injEq] at h
      subst h
      obtain ⟨hall, hempty⟩ := run_induct hnext (hstart state hstarted) hrun
      exact ⟨last, hall, hempty, rfl⟩

/-! ### The order of turns -/

theorem Handles.turn?_eq (h : build.Handles state idx queue record next) :
    state.turn? = some ⟨idx, record, state.work⟩ := by
  rw [BuildState.turn?, h.head]
  dsimp only
  rw [h.found, Option.map_some]

theorem Handles.lt_size (h : build.Handles state idx queue record next) :
    idx < state.work.graph.size :=
  ModuleGraph.lt_size_of_get? h.found

theorem Handles.grown (h : build.Handles state idx queue record next)
    (hgraph : state.work.graph.InRange) :
    ∃ (output : FileOutput) (created : List Nat) (work : Workspace σ),
      build.walkModule record = .ok output ∧
      build.factory.createEach (output.dependencies.filterMap (requestData? record.context))
        state.work = (created.map .ok, work) ∧
      Grown state.work.graph created.eraseDups work.graph ∧
      next.work = { work with
        graph := work.graph.modify idx (finished output created.eraseDups) } ∧
      next.queue = queue ++ freshPlaces state created.eraseDups ∧
      next.seen = state.seen ++ freshPlaces state created.eraseDups := by
  obtain ⟨output, places, work, hwalk, hcreate, hwork, hqueue, hseen⟩ := h.created
  have hgrown := grown_createAll hgraph hcreate
  obtain ⟨created, heach, rfl⟩ := run_createAll_eq_ok_iff.mp hcreate
  rw [foldl_insertNew] at hgrown hwork hqueue hseen
  exact ⟨output, created, work, hwalk, heach, hgrown, hwork, hqueue, hseen⟩

theorem Handles.unnamed_get? (h : build.Handles state idx queue record next)
    (hgraph : state.work.graph.InRange) :
    state.work.graph.size ≤ next.work.graph.size ∧
      ∀ i < state.work.graph.size, i ≠ idx →
        (next.work.graph.get? i).map ModuleRecord.unnamed =
          (state.work.graph.get? i).map ModuleRecord.unnamed := by
  obtain ⟨walked, created, work, -, -, hgrown, hwork, -, -⟩ := h.grown hgraph
  rw [hwork]
  refine ⟨(ModuleGraph.size_modify work.graph idx _).symm ▸ hgrown.size_le, fun i hi hne => ?_⟩
  rw [ModuleGraph.get?_modify, if_neg (Ne.symm hne)]
  exact hgrown.kept i hi

/-- The turns so far are those of the first modules, and the queue is all others. -/
structure InOrder (past : List (Turn σ)) (state : BuildState σ) : Prop where
  inRange : state.work.graph.InRange
  nonempty : 0 < state.work.graph.size
  handled : past.length ≤ state.work.graph.size
  places : past.map Turn.idx = List.range past.length
  queue : state.queue = List.range' past.length (state.work.graph.size - past.length)
  seen : state.seen = List.range state.work.graph.size

theorem inOrder_start {entry : String} {resolver : σ}
    (h : build.start entry resolver = .ok (idx, state)) :
    InOrder [] state ∧ idx = 0 ∧ state.work.graph.size = 1 := by
  unfold start at h
  split at h
  · simp at h
  · rename_i found work hcreate
    obtain ⟨rfl, rfl⟩ := Prod.mk.inj (Except.ok.inj h)
    obtain ⟨final, -, hcreated⟩ := Factory.created_of_ok hcreate
    have hnone : ¬ found < ({} : ModuleGraph).size := Nat.not_lt_zero found
    obtain ⟨rfl, hsize⟩ := (hcreated.place ModuleGraph.inRange_empty).resolve_left (hnone ·.1)
    refine ⟨⟨hcreated.inRange ModuleGraph.inRange_empty, ?_, Nat.zero_le _, rfl, ?_, ?_⟩, rfl,
      hsize⟩
    · show 0 < work.graph.size
      rw [hsize]
      exact Nat.one_pos
    · show [0] = List.range' 0 (work.graph.size - 0)
      rw [hsize]
      rfl
    · show [0] = List.range work.graph.size
      rw [hsize]
      rfl

namespace InOrder

variable (h : InOrder past state)
include h

theorem handles (hnext : build.next? state = some next) :
    ∃ queue record, build.Handles state past.length queue record next := by
  rcases next?_eq_some hnext with ⟨idx, queue, record, hhandles⟩ | ⟨idx, queue, hqueue, hnone, -⟩
  · obtain rfl : idx = past.length := by
      have hhead := h.queue.symm.trans hhandles.head
      exact (List.range'_eq_cons_iff.mp hhead).1.symm
    exact ⟨queue, record, hhandles⟩
  · have hhead := h.queue.symm.trans hqueue
    obtain ⟨rfl, hpos, -⟩ := List.range'_eq_cons_iff.mp hhead
    obtain ⟨record, hrecord⟩ :=
      ModuleGraph.exists_get?_of_lt_size (Nat.lt_of_sub_pos hpos)
    rw [hrecord] at hnone
    simp at hnone

/-- The places that are new to the queue are the new places of the graph. -/
theorem freshPlaces_eq {places : List Nat} {graph : ModuleGraph}
    (hgrown : Grown state.work.graph places graph) :
    freshPlaces state places =
      List.range' state.work.graph.size (graph.size - state.work.graph.size) := by
  rw [← hgrown.fresh, freshPlaces, h.seen]
  refine List.filter_congr fun place _ => ?_
  rw [Bool.eq_iff_iff]
  simp

theorem step (hhandles : build.Handles state past.length queue record next) :
    InOrder (past ++ [⟨past.length, record, state.work⟩]) next := by
  obtain ⟨output, created, work, -, -, hgrown, hwork, hqueue, hseen⟩ := hhandles.grown h.inRange
  have hlt := hhandles.lt_size
  have hle := hgrown.size_le
  have hsize : next.work.graph.size = work.graph.size := by
    rw [hwork, ModuleGraph.size_modify]
  have hrest : queue = List.range' (past.length + 1) (state.work.graph.size - past.length - 1) := by
    have hhead := h.queue.symm.trans hhandles.head
    exact (List.range'_eq_cons_iff.mp hhead).2.2
  refine ⟨?_, ?_, ?_, ?_, ?_, ?_⟩
  · rw [hwork]
    exact hgrown.inRange.modify _ _
  · omega
  · rw [hsize, List.length_append, List.length_singleton]
    omega
  · rw [List.map_append, h.places, List.length_append, List.length_singleton, List.range_succ]
    rfl
  · rw [hqueue, hrest, h.freshPlaces_eq hgrown, hsize, List.length_append, List.length_singleton]
    have hend : past.length + 1 + 1 * (state.work.graph.size - past.length - 1) =
        state.work.graph.size := by omega
    have hcount : work.graph.size - (past.length + 1) =
        state.work.graph.size - past.length - 1 + (work.graph.size - state.work.graph.size) := by
      omega
    rw [hcount, ← List.range'_append, hend]
  · rw [hseen, h.freshPlaces_eq hgrown, hsize, h.seen, List.range_eq_range', List.range_eq_range']
    have hcount : work.graph.size =
        state.work.graph.size + (work.graph.size - state.work.graph.size) := by omega
    conv_rhs => rw [hcount]
    rw [← List.range'_append, Nat.zero_add, Nat.one_mul]

theorem length_eq (hempty : state.queue = []) : past.length = state.work.graph.size := by
  have hnone := h.queue.symm.trans hempty
  have hzero := List.range'_eq_nil_iff.mp hnone
  have hle := h.handled
  omega

end InOrder

/-- What holds at the start, and is carried on by each turn, holds in the end of a build that
succeeds, when it has been the turn of every module. -/
theorem turns_induct {P : List (Turn σ) → BuildState σ → Prop} {fuel : Nat} {entry : String}
    {resolver : σ} {output : BuildOutput}
    (h : build.build? fuel entry resolver = some (.ok output))
    (hstart : ∀ state, build.start entry resolver = .ok (output.entry, state) → P [] state)
    (hturn : ∀ past state next queue record, InOrder past state → P past state →
      build.Handles state past.length queue record next →
        P (past ++ [⟨past.length, record, state.work⟩]) next) :
    ∃ last, P (build.turns fuel entry resolver) last ∧ last.work.graph = output.graph ∧
      0 < output.graph.size ∧
      (build.turns fuel entry resolver).map Turn.idx = List.range output.graph.size := by
  have hcarried := build?_induct (P := fun past state => InOrder past state ∧ P past state) h
    (fun state hstarted => ⟨(inOrder_start hstarted).1, hstart state hstarted⟩)
    (fun past state next hsofar hnext => by
      obtain ⟨queue, record, hhandles⟩ := hsofar.1.handles hnext
      rw [hhandles.turn?_eq]
      exact ⟨hsofar.1.step hhandles,
        hturn past state next queue record hsofar.1 hsofar.2 hhandles⟩)
  obtain ⟨last, ⟨horder, hlast⟩, hempty, hgraph⟩ := hcarried
  refine ⟨last, hlast, hgraph, hgraph ▸ horder.nonempty, ?_⟩
  rw [horder.places, horder.length_eq hempty, hgraph]

end Build
end AmdBundle
