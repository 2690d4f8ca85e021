import AmdBundle.Build

/-!
# AmdBundle.Proofs.Build.Steps — builds step by step

The states that a build comes to, one after the other (`stateAfter?`).  Fuel is enough exactly if
there are not that many (`isSome_build?_iff`).

Handling a module is opened once: what it creates goes through `createAll_induct`, and what becomes
of the state is said by `next?_eq_some`.
-/

namespace AmdBundle
namespace Build

variable {σ : Type} {build : Build σ}

/-! ### States one after the other -/

/-- The state after the first module of the queue has been handled, if there is one and it can be.
-/
def next? (build : Build σ) (state : BuildState σ) : Option (BuildState σ) :=
  match build.step state with
  | .ok next => next
  | .error _ => none

/-- The state after so many modules. -/
def after? (build : Build σ) : Nat → BuildState σ → Option (BuildState σ)
  | 0, state => some state
  | n + 1, state => (build.next? state).bind (after? build n)

/-- The state that a build is in when it has handled so many modules. -/
def stateAfter? (build : Build σ) (entry : String) (resolver : σ) (n : Nat) :
    Option (BuildState σ) :=
  match build.start entry resolver with
  | .ok (_, state) => build.after? n state
  | .error _ => none

theorem after?_succ (n : Nat) (state : BuildState σ) :
    build.after? (n + 1) state = (build.after? n state).bind build.next? := by
  induction n generalizing state with
  | zero =>
    show (build.next? state).bind some = build.next? state
    cases build.next? state <;> rfl
  | succ n ih =>
    show (build.next? state).bind (build.after? (n + 1)) =
      ((build.next? state).bind (build.after? n)).bind build.next?
    rw [Option.bind_assoc]
    exact congrArg _ (funext ih)

theorem stateAfter?_succ (entry : String) (resolver : σ) (n : Nat) :
    build.stateAfter? entry resolver (n + 1) =
      (build.stateAfter? entry resolver n).bind build.next? := by
  unfold stateAfter?
  cases build.start entry resolver with
  | error error => rfl
  | ok started => exact after?_succ n started.2

theorem stateAfter?_induct {entry : String} {resolver : σ} {P : Nat → BuildState σ → Prop}
    (hstart : ∀ idx state, build.start entry resolver = .ok (idx, state) → P 0 state)
    (hnext : ∀ n state next, P n state → build.next? state = some next → P (n + 1) next)
    {n : Nat} {state : BuildState σ} (h : build.stateAfter? entry resolver n = some state) :
    P n state := by
  induction n generalizing state with
  | zero =>
    unfold stateAfter? at h
    split at h
    · rename_i idx started hstarted
      obtain rfl : started = state := Option.some.inj h
      exact hstart idx started hstarted
    · simp at h
  | succ n ih =>
    rw [stateAfter?_succ] at h
    obtain ⟨before, hbefore, hstep⟩ := Option.bind_eq_some_iff.mp h
    exact hnext n before state (ih hbefore) hstep

theorem stateAfter?_eq_none {entry : String} {resolver : σ} {n m : Nat} (hle : n ≤ m)
    (h : build.stateAfter? entry resolver n = none) :
    build.stateAfter? entry resolver m = none := by
  induction hle with
  | refl => exact h
  | step _ ih => rw [stateAfter?_succ, ih, Option.bind_none]

/-! ### Fuel -/

theorem run_eq_unfinished_iff (fuel : Nat) (state : BuildState σ) :
    (∃ last, build.run fuel state = .unfinished last) ↔
      (build.after? (fuel + 1) state).isSome = true := by
  induction fuel generalizing state with
  | zero =>
    unfold run after? next?
    cases build.step state with
    | error error => simp
    | ok next => cases next <;> simp [after?]
  | succ fuel ih =>
    unfold run after? next?
    cases build.step state with
    | error error => simp
    | ok next =>
      cases next with
      | none => simp
      | some next => exact ih next

/-- A build gives a result exactly if it handles no more modules than it has fuel. -/
theorem isSome_build?_iff (fuel : Nat) (entry : String) (resolver : σ) :
    (build.build? fuel entry resolver).isSome = true ↔
      build.stateAfter? entry resolver (fuel + 1) = none := by
  unfold build? stateAfter?
  cases build.start entry resolver with
  | error error => simp
  | ok started =>
    have hrun : (∃ last, build.run fuel started.2 = .unfinished last) ↔
        (build.after? (fuel + 1) started.2).isSome = true :=
      run_eq_unfinished_iff fuel started.2
    rw [← Option.not_isSome_iff_eq_none, ← hrun]
    dsimp only
    cases build.run fuel started.2 <;> simp

theorem exists_build?_iff (entry : String) (resolver : σ) :
    (∃ fuel output, build.build? fuel entry resolver = some output) ↔
      ∃ n, build.stateAfter? entry resolver n = none := by
  simp only [← Option.isSome_iff_exists, isSome_build?_iff]
  constructor
  · rintro ⟨fuel, h⟩
    exact ⟨fuel + 1, h⟩
  · rintro ⟨n, h⟩
    exact ⟨n, stateAfter?_eq_none (Nat.le_succ n) h⟩

theorem not_exists_build? {entry : String} {resolver : σ} {P : Nat → BuildState σ → Prop}
    {idx : Nat} {state : BuildState σ} (hstart : build.start entry resolver = .ok (idx, state))
    (h : P 0 state)
    (hnext : ∀ n state, P n state → ∃ next, build.next? state = some next ∧ P (n + 1) next) :
    ¬ ∃ fuel output, build.build? fuel entry resolver = some output := by
  rw [exists_build?_iff]
  rintro ⟨n, hnone⟩
  have hall : ∀ n, ∃ state, build.stateAfter? entry resolver n = some state ∧ P n state := by
    intro n
    induction n with
    | zero =>
      refine ⟨state, ?_, h⟩
      rw [stateAfter?, hstart]
      rfl
    | succ n ih =>
      obtain ⟨before, hbefore, hholds⟩ := ih
      obtain ⟨next, hnext, hholds⟩ := hnext n before hholds
      exact ⟨next, by rw [stateAfter?_succ, hbefore, Option.bind_some, hnext], hholds⟩
  obtain ⟨last, hlast, -⟩ := hall n
  rw [hnone] at hlast
  simp at hlast

/-! ### What handling a module does -/

theorem mem_insertNew {xs : List Nat} {x y : Nat} : y ∈ insertNew xs x ↔ y ∈ xs ∨ y = x := by
  unfold insertNew
  split
  · rename_i h
    have hmem : x ∈ xs := List.contains_iff_mem.mp h
    constructor
    · exact .inl
    · rintro (hy | rfl)
      · exact hy
      · exact hmem
  · simp

theorem nodup_insertNew {xs : List Nat} (h : xs.Nodup) (x : Nat) : (insertNew xs x).Nodup := by
  unfold insertNew
  split
  · exact h
  · rename_i hnew
    refine List.nodup_append.mpr ⟨h, by simp, ?_⟩
    rintro a ha b hb rfl
    obtain rfl := List.mem_singleton.mp hb
    exact hnew (List.contains_iff_mem.mpr ha)

theorem run_createAll_cons (data : ResolveData) (rest : List ResolveData) (places : List Nat)
    (work : Workspace σ) :
    (build.createAll (data :: rest) places).run.run work =
      match build.factory.createFrom data work with
      | (.ok idx, after) => (build.createAll rest (insertNew places idx)).run.run after
      | (.error error, after) => (.error error, after) := by
  show (ExceptT.bindCont (fun idx => build.createAll rest (insertNew places idx))
    (build.factory.createFrom data work).1) (build.factory.createFrom data work).2 = _
  rcases build.factory.createFrom data work with ⟨error | idx, after⟩ <;> rfl

/-- What holds of places and a workspace, and goes on to hold when one of the requests has succeeded
and its place is added, holds when all of them have. -/
theorem createAll_induct {P : List Nat → Workspace σ → Prop} {requests : List ResolveData}
    {places places' : List Nat} {work work' : Workspace σ}
    (hcreate : ∀ data ∈ requests, ∀ places work idx work', P places work →
      build.factory.createFrom data work = (.ok idx, work') → P (insertNew places idx) work')
    (hwork : P places work)
    (h : (build.createAll requests places).run.run work = (.ok places', work')) :
    P places' work' := by
  induction requests generalizing places work with
  | nil =>
    have h : ((.ok places, work) : Except Error (List Nat) × Workspace σ) =
        (.ok places', work') := h
    obtain ⟨rfl, rfl⟩ : places = places' ∧ work = work' := by simpa using h
    exact hwork
  | cons data rest ih =>
    rw [run_createAll_cons] at h
    rcases hdata : build.factory.createFrom data work with ⟨error | idx, after⟩
    · rw [hdata] at h
      exact absurd (congrArg Prod.fst h) (by simp)
    · rw [hdata] at h
      refine ih (fun other hother => hcreate other (List.mem_cons_of_mem _ hother)) ?_ h
      exact hcreate data List.mem_cons_self places work idx after hwork hdata

theorem walkModule_eq_ok {record : ModuleRecord} {nodes : List Node} {state : FileState}
    (hsource : build.source record = .ok nodes)
    (hwalk : FileState.walk build.hooks nodes { identity := ⟨record.absMid, record.request⟩ } =
      (.ok (), state)) : build.walkModule record = .ok state.output := by
  unfold walkModule
  rw [hsource]
  dsimp only
  rw [hwalk]

/-- The places that a module needs and that have not been in the queue. -/
def freshPlaces (state : BuildState σ) (places : List Nat) : List Nat :=
  places.filter fun place => !state.seen.contains place

theorem mem_of_mem_freshPlaces {state : BuildState σ} {places : List Nat} {i : Nat}
    (h : i ∈ freshPlaces state places) : i ∈ places :=
  (List.mem_filter.mp h).1

theorem nodup_append_freshPlaces {state : BuildState σ} {places : List Nat}
    (hseen : state.seen.Nodup) (hplaces : places.Nodup) :
    (state.seen ++ freshPlaces state places).Nodup := by
  refine List.nodup_append.mpr ⟨hseen, hplaces.filter _, ?_⟩
  rintro a ha b hb rfl
  have hnew := (List.mem_filter.mp hb).2
  rw [List.contains_iff_mem.mpr ha] at hnew
  exact absurd hnew (by decide)

/-- A module of the graph that is handled: its program is walked, what it asks for is created, and
the places that are new come behind the queue. -/
structure Handles (build : Build σ) (state : BuildState σ) (idx : Nat) (queue : List Nat)
    (record : ModuleRecord) (next : BuildState σ) : Prop where
  head : state.queue = idx :: queue
  found : state.work.graph.get? idx = some record
  created : ∃ output places work,
    build.walkModule record = .ok output ∧
    (build.createAll (output.dependencies.filterMap (requestData? record.context)) []).run.run
      state.work = (.ok places, work) ∧
    next.work = { work with graph := work.graph.modify idx (finished output places) } ∧
    next.queue = queue ++ freshPlaces state places ∧
    next.seen = state.seen ++ freshPlaces state places

theorem next?_eq_some {state next : BuildState σ} (h : build.next? state = some next) :
    (∃ idx queue record, build.Handles state idx queue record next) ∨
      ∃ idx queue, state.queue = idx :: queue ∧ state.work.graph.get? idx = none ∧
        next = { state with queue } := by
  unfold next? step at h
  cases hqueue : state.queue with
  | nil => simp [hqueue] at h
  | cons idx queue =>
    simp only [hqueue] at h
    cases hrecord : state.work.graph.get? idx with
    | none =>
      simp only [hrecord, Option.some.injEq] at h
      exact .inr ⟨idx, queue, rfl, hrecord, h.symm⟩
    | some record =>
      refine .inl ⟨idx, queue, record, hqueue, hrecord, ?_⟩
      simp only [hrecord, handle] at h
      cases hwalk : build.walkModule record with
      | error error => simp [hwalk] at h
      | ok output =>
        simp only [hwalk] at h
        rcases hcreate : (build.createAll
          (output.dependencies.filterMap (requestData? record.context)) []).run.run state.work with
          ⟨error | places, work⟩
        · simp [hcreate] at h
        · simp only [hcreate, Option.some.injEq] at h
          subst h
          exact ⟨output, places, work, rfl, hcreate, rfl, rfl, rfl⟩

theorem next?_of_createAll {state : BuildState σ} {idx : Nat} {queue : List Nat}
    {record : ModuleRecord} {output : FileOutput} {places : List Nat} {work : Workspace σ}
    (hqueue : state.queue = idx :: queue) (hrecord : state.work.graph.get? idx = some record)
    (hwalk : build.walkModule record = .ok output)
    (hcreate : (build.createAll
      (output.dependencies.filterMap (requestData? record.context)) []).run.run state.work =
        (.ok places, work)) :
    build.next? state = some {
      work := { work with graph := work.graph.modify idx (finished output places) }
      queue := queue ++ freshPlaces state places
      seen := state.seen ++ freshPlaces state places
      warnings := state.warnings ++ output.warnings } := by
  unfold next? step
  simp only [hqueue, hrecord, handle, hwalk, hcreate]
  rfl

end Build
end AmdBundle
