import AmdBundle.Proofs.Amd.HostForm
import AmdBundle.Proofs.Walk.Run

/-!
# AmdBundle.Proofs.Walk.Simulation — two walks side by side

Two files `Matches` if one has recorded what the other has, up to the host form of dependencies and
up to one dependency on the loader's script, which is there from the first mark on.  A step
`Simulates` another if from files that match both succeed with one value and leave files that match.

The relation keeps to the way steps are put together: `Simulates.pure`, `Simulates.bind`,
`Simulates.withTry`, `Simulates.forM`.
-/

namespace AmdBundle

/-- The dependencies of one file are, in host form, those of the other, apart from one on the
loader's script if there is a loader. -/
def IsExtension (loader? : Option String) (full plain : List Dependency) : Prop :=
  match loader? with
  | none => full.map Dependency.toHost = plain
  | some loader => ∃ before after, full = before ++ .require loader :: after ∧
      (before ++ after).map Dependency.toHost = plain

theorem IsExtension.append {loader? : Option String} {full plain more plainMore : List Dependency}
    (h : IsExtension loader? full plain) (hmore : more.map Dependency.toHost = plainMore) :
    IsExtension loader? (full ++ more) (plain ++ plainMore) := by
  cases loader? with
  | none =>
    have h : full.map Dependency.toHost = plain := h
    show (full ++ more).map Dependency.toHost = plain ++ plainMore
    rw [List.map_append, h, hmore]
  | some loader =>
    obtain ⟨before, after, rfl, hplain⟩ := h
    refine ⟨before, after ++ more, ?_, ?_⟩
    · rw [List.append_assoc, List.cons_append]
    · rw [← List.append_assoc, List.map_append, hplain, hmore]

/-- The loader's script is the one dependency that the other file does not have. -/
theorem IsExtension.require {full plain : List Dependency} (h : IsExtension none full plain)
    (loader : String) : IsExtension (some loader) (full ++ [.require loader]) plain := by
  refine ⟨full, [], rfl, ?_⟩
  rw [List.append_nil]
  exact h

/-- Two files agree but for what the loader adds.  A file with a call that is being handled has the
loader's script already. -/
structure Matches (loader? : Option String) (full plain : FileState) : Prop where
  identity : full.identity = plain.identity
  locals : full.locals = plain.locals
  warnings : full.warnings = plain.warnings
  inTry : full.inTry = plain.inTry
  inside : loader?.isSome = true → full.processing ≠ [] → full.loaderInjected = true
  dependencies : IsExtension (if full.loaderInjected then loader? else none)
    full.dependencies plain.dependencies

/-- The first step does what the second does, and has the loader's script recorded if it comes to a
call of `define` (`fires`).  Both end with one value, of which `post` is known. -/
def Simulates {α : Type} (loader? : Option String) (fires : Bool) (post : α → Prop)
    (full plain : WalkM α) : Prop :=
  ∀ fullState plainState, Matches loader? fullState plainState →
    ∃ a fullAfter plainAfter,
      full.runFrom fullState = (.ok a, fullAfter) ∧
      plain.runFrom plainState = (.ok a, plainAfter) ∧
      post a ∧
      Matches loader? fullAfter plainAfter ∧
      fullAfter.processing = fullState.processing ∧
      fullAfter.loaderInjected = (fullState.loaderInjected || fires && loader?.isSome)

namespace Simulates

variable {α β : Type} {loader? : Option String} {fires : Bool} {post : α → Prop}
  {full plain : WalkM α}

theorem pure {a : α} (h : post a) :
    Simulates loader? false post (Pure.pure a) (Pure.pure a) := fun fullState plainState hmatch =>
  ⟨a, fullState, plainState, rfl, rfl, h, hmatch, rfl, by simp⟩

theorem bind {next : Bool} {goal : β → Prop} {fullNext plainNext : α → WalkM β}
    (h : Simulates loader? fires post full plain)
    (hnext : ∀ a, post a → Simulates loader? next goal (fullNext a) (plainNext a)) :
    Simulates loader? (fires || next) goal (full >>= fullNext) (plain >>= plainNext) := by
  intro fullState plainState hmatch
  obtain ⟨a, fullMid, plainMid, hfull, hplain, ha, hmid, hprocessing, hinjected⟩ :=
    h fullState plainState hmatch
  obtain ⟨b, fullAfter, plainAfter, hfull', hplain', hb, hafter, hprocessing', hinjected'⟩ :=
    hnext a ha fullMid plainMid hmid
  refine ⟨b, fullAfter, plainAfter, ?_, ?_, hb, hafter, hprocessing'.trans hprocessing, ?_⟩
  · rw [WalkM.runFrom_bind_of_ok hfull, hfull']
  · rw [WalkM.runFrom_bind_of_ok hplain, hplain']
  · rw [hinjected', hinjected, Bool.or_assoc, Bool.and_or_distrib_right]

theorem bind_still {goal : β → Prop} {fullNext plainNext : α → WalkM β}
    (h : Simulates loader? fires post full plain)
    (hnext : ∀ a, post a → Simulates loader? false goal (fullNext a) (plainNext a)) :
    Simulates loader? fires goal (full >>= fullNext) (plain >>= plainNext) :=
  Bool.or_false fires ▸ h.bind hnext

theorem withTry (value : Bool) (h : Simulates loader? fires post full plain) :
    Simulates loader? fires post (WalkM.withTry value full) (WalkM.withTry value plain) := by
  intro fullState plainState hmatch
  have hset : Matches loader? { fullState with inTry := value }
      { plainState with inTry := value } :=
    ⟨hmatch.identity, hmatch.locals, hmatch.warnings, rfl, hmatch.inside, hmatch.dependencies⟩
  obtain ⟨a, fullAfter, plainAfter, hfull, hplain, ha, hafter, hprocessing, hinjected⟩ :=
    h _ _ hset
  refine ⟨a, { fullAfter with inTry := fullState.inTry },
    { plainAfter with inTry := plainState.inTry }, ?_, ?_, ha, ?_, hprocessing, hinjected⟩
  · rw [WalkM.runFrom_withTry, hfull]
  · rw [WalkM.runFrom_withTry, hplain]
  · exact ⟨hafter.identity, hafter.locals, hafter.warnings, hmatch.inTry, hafter.inside,
      hafter.dependencies⟩

theorem forM {γ : Type} {xs : List γ} {fires : γ → Bool} {full plain : γ → WalkM Unit}
    (h : ∀ x ∈ xs, Simulates loader? (fires x) (fun _ => True) (full x) (plain x)) :
    Simulates loader? (xs.any fires) (fun _ => True) (xs.forM full) (xs.forM plain) := by
  induction xs with
  | nil => exact Simulates.pure trivial
  | cons x xs ih =>
    rw [List.any_cons]
    exact (h x List.mem_cons_self).bind fun _ _ =>
      ih fun y hy => h y (List.mem_cons_of_mem _ hy)

theorem of_update {change plainChange : FileState → FileState}
    (hmatch : ∀ {full plain}, Matches loader? full plain →
      Matches loader? (change full) (plainChange plain))
    (hprocessing : ∀ state, (change state).processing = state.processing)
    (hinjected : ∀ state, (change state).loaderInjected = state.loaderInjected) :
    Simulates loader? false (fun _ => True) (WalkM.update change) (WalkM.update plainChange) := by
  intro fullState plainState h
  exact ⟨(), change fullState, plainChange plainState, rfl, rfl, trivial, hmatch h,
    hprocessing fullState, by simp [hinjected fullState]⟩

theorem record (dependency : Dependency) :
    Simulates loader? false (fun _ => True) (WalkM.record dependency)
      (WalkM.record dependency.toHost) := by
  refine of_update (fun h => ?_) (fun _ => rfl) fun _ => rfl
  exact ⟨h.identity, h.locals, h.warnings, h.inTry, h.inside, h.dependencies.append rfl⟩

end Simulates
end AmdBundle
