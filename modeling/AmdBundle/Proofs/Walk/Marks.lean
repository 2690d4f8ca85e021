import AmdBundle.Proofs.Walk.Run

/-!
# AmdBundle.Proofs.Walk.Marks — two runs with other marks

Two steps are `Alike` if they end in the same way and change a file in the same way, although the
calls marked in it are others in the one run than in the other.  Where an interceptor sets the
marks (`guarded`), a file with a mark in either run is an AMD file that has the loader's script, so
a call that is not marked adds no more to it than one that is (`Noted`).

The relation keeps to the way steps are put together: `Alike.pure`, `Alike.bind`, `Alike.withTry`,
`Alike.forM_map`.  A step that does not look at the marks is like itself (`Alike.of_blind`).
-/

namespace AmdBundle

def FileState.withMarks (state : FileState) (marks : List UInt32) : FileState :=
  { state with processing := marks }

namespace WalkM

/-- Marks come with what the interceptor that sets them has noted in the file. -/
def Noted (guarded : Bool) (marks others : List UInt32) (state : FileState) : Prop :=
  guarded = true → marks ≠ [] ∨ others ≠ [] → state.isAmd = true ∧ state.loaderInjected = true

/-- The steps succeed with one value and do the same to a file, whatever is marked in it, and leave
the marks as they were. -/
def Alike {α : Type} (guarded : Bool) (step other : WalkM α) : Prop :=
  ∀ state marks others, Noted guarded marks others state →
    ∃ a after,
      step.runFrom (state.withMarks marks) = (.ok a, after.withMarks marks) ∧
      other.runFrom (state.withMarks others) = (.ok a, after.withMarks others) ∧
      Noted guarded marks others after

namespace Alike

variable {α β γ δ : Type} {guarded : Bool} {step other : WalkM α}

theorem pure (a : α) : Alike guarded (Pure.pure a) (Pure.pure a) := fun state _ _ hnoted =>
  ⟨a, state, rfl, rfl, hnoted⟩

theorem bind {next otherNext : α → WalkM β} (h : Alike guarded step other)
    (hnext : ∀ a, Alike guarded (next a) (otherNext a)) :
    Alike guarded (step >>= next) (other >>= otherNext) := by
  intro state marks others hnoted
  obtain ⟨a, mid, hstep, hother, hmid⟩ := h state marks others hnoted
  obtain ⟨b, after, hstep', hother', hafter⟩ := hnext a mid marks others hmid
  refine ⟨b, after, ?_, ?_, hafter⟩
  · rw [runFrom_bind_of_ok hstep, hstep']
  · rw [runFrom_bind_of_ok hother, hother']

theorem withTry (value : Bool) (h : Alike guarded step other) :
    Alike guarded (WalkM.withTry value step) (WalkM.withTry value other) := by
  intro state marks others hnoted
  obtain ⟨a, after, hstep, hother, hafter⟩ :=
    h { state with inTry := value } marks others hnoted
  have hrun : ∀ {run : WalkM α} {marks : List UInt32},
      run.runFrom (FileState.withMarks { state with inTry := value } marks) =
        (.ok a, after.withMarks marks) →
      (WalkM.withTry value run).runFrom (state.withMarks marks) =
        (.ok a, FileState.withMarks { after with inTry := state.inTry } marks) := by
    intro run marks h
    rw [runFrom_withTry]
    exact congrArg (fun ended => (ended.1, { ended.2 with inTry := state.inTry })) h
  exact ⟨a, { after with inTry := state.inTry }, hrun hstep, hrun hother, hafter⟩

theorem forM_map {f : γ → WalkM Unit} {g : δ → WalkM Unit} {become : γ → δ} {xs : List γ}
    (h : ∀ x ∈ xs, Alike guarded (f x) (g (become x))) :
    Alike guarded (xs.forM f) ((xs.map become).forM g) := by
  induction xs with
  | nil => exact Alike.pure ()
  | cons x xs ih =>
    exact (h x List.mem_cons_self).bind fun _ => ih fun y hy => h y (List.mem_cons_of_mem _ hy)

/-- A step that neither looks at the marks nor takes back what they come with is like itself. -/
theorem of_blind
    (h : ∀ state : FileState, ∃ (a : α) (after : FileState),
      step.runFrom state = (.ok a, after) ∧
      (∀ marks, step.runFrom (state.withMarks marks) = (.ok a, after.withMarks marks)) ∧
      after.isAmd = state.isAmd ∧ after.loaderInjected = state.loaderInjected) :
    Alike guarded step step := by
  intro state marks others hnoted
  obtain ⟨a, after, -, hrun, hisAmd, hinjected⟩ := h state
  refine ⟨a, after, hrun marks, hrun others, fun hguarded hmarks => ?_⟩
  rw [hisAmd, hinjected]
  exact hnoted hguarded hmarks

theorem record (dependency : Dependency) :
    Alike guarded (WalkM.record dependency) (WalkM.record dependency) :=
  of_blind fun _ => ⟨_, _, rfl, fun _ => rfl, rfl, rfl⟩

end Alike

end WalkM
end AmdBundle
