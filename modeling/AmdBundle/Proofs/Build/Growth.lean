import AmdBundle.Proofs.Build.Steps
import AmdBundle.Proofs.Factory.Places
import Mathlib.Data.List.Induction

/-!
# AmdBundle.Proofs.Build.Growth — what the requests of a module do to the graph

The requests of a module are created one after the other (`run_createAll_eq_ok_iff`), and the module
keeps each place once, where it came up first (`foldl_insertNew`).  Seen from before, the places
are old ones and all the new ones, the latter in order without a gap (`Grown.fresh`).
-/

namespace AmdBundle
namespace Build

variable {σ : Type} {build : Build σ}

/-! ### Places, each once -/

theorem insertNew_of_mem {xs : List Nat} {x : Nat} (h : x ∈ xs) : insertNew xs x = xs :=
  if_pos (List.contains_iff_mem.mpr h)

theorem insertNew_of_not_mem {xs : List Nat} {x : Nat} (h : x ∉ xs) :
    insertNew xs x = xs ++ [x] :=
  if_neg fun hcontains => h (List.contains_iff_mem.mp hcontains)

/-- Values inserted one after the other stand in the order of their first occurrences. -/
theorem foldl_insertNew (xs : List Nat) : xs.foldl insertNew [] = xs.eraseDups := by
  induction xs using List.reverseRecOn with
  | nil => rfl
  | append_singleton xs x ih =>
    rw [List.foldl_append, ih, List.foldl_cons, List.foldl_nil, List.eraseDups_append]
    by_cases hx : x ∈ xs
    · have hrest : [x].removeAll xs = [] := by simp [List.removeAll, hx]
      rw [insertNew_of_mem (List.mem_eraseDups.mpr hx), hrest, List.eraseDups_nil, List.append_nil]
    · have hrest : [x].removeAll xs = [x] := by simp [List.removeAll, hx]
      rw [insertNew_of_not_mem fun h => hx (List.mem_eraseDups.mp h), hrest]
      rfl

theorem nodup_foldl_insertNew {xs : List Nat} (h : xs.Nodup) (more : List Nat) :
    (more.foldl insertNew xs).Nodup := by
  induction more generalizing xs with
  | nil => exact h
  | cons x more ih => exact ih (nodup_insertNew h x)

theorem run_createAll_eq_ok_iff {requests : List ResolveData} {places places' : List Nat}
    {work work' : Workspace σ} :
    (build.createAll requests places).run.run work = (.ok places', work') ↔
      ∃ created : List Nat,
        build.factory.createEach requests work = (created.map .ok, work') ∧
          places' = created.foldl insertNew places := by
  induction requests generalizing places work with
  | nil =>
    show ((.ok places, work) : Except Error (List Nat) × Workspace σ) = (.ok places', work') ↔ _
    constructor
    · intro h
      obtain ⟨rfl, rfl⟩ : places = places' ∧ work = work' := by simpa using h
      exact ⟨[], rfl, rfl⟩
    · rintro ⟨created, hcreated, rfl⟩
      obtain ⟨hnil, rfl⟩ := Prod.mk.inj hcreated
      obtain rfl := List.map_eq_nil_iff.mp hnil.symm
      rfl
  | cons data rest ih =>
    -- the first request decides whether the others are created at all
    rw [run_createAll_cons, Factory.createEach_cons]
    rcases hdata : build.factory.createFrom data work with ⟨error | idx, after⟩
    · constructor
      · intro h
        exact absurd (congrArg Prod.fst h) (by simp)
      · rintro ⟨created, hcreated, -⟩
        cases created with
        | nil => simp at hcreated
        | cons => simp at hcreated
    · dsimp only
      rw [ih]
      constructor
      · rintro ⟨created, hcreated, rfl⟩
        exact ⟨idx :: created, by rw [hcreated]; rfl, rfl⟩
      · rintro ⟨created, hcreated, rfl⟩
        cases created with
        | nil => simp at hcreated
        | cons first created =>
          simp only [List.map_cons, Prod.mk.injEq, List.cons.injEq, Except.ok.injEq] at hcreated
          obtain ⟨⟨rfl, hrest⟩, hwork⟩ := hcreated
          exact ⟨created, Prod.ext hrest hwork, rfl⟩

/-! ### The graph -/

/-- What creations have done to a graph when they have given the places. -/
structure Grown (graph : ModuleGraph) (places : List Nat) (graph' : ModuleGraph) : Prop where
  inRange : graph'.InRange
  size_le : graph.size ≤ graph'.size
  lt_size : ∀ i ∈ places, i < graph'.size
  /-- The places that the graph did not have are all the new ones, in order. -/
  fresh : places.filter (graph.size ≤ ·) =
    List.range' graph.size (graph'.size - graph.size)
  kept : ∀ i < graph.size,
    (graph'.get? i).map ModuleRecord.unnamed = (graph.get? i).map ModuleRecord.unnamed

namespace Grown

variable {graph before after : ModuleGraph} {places : List Nat}

theorem refl (h : graph.InRange) : Grown graph [] graph where
  inRange := h
  size_le := Nat.le_refl _
  lt_size := by simp
  fresh := by rw [Nat.sub_self]; rfl
  kept _ _ := rfl

theorem insertNew {data : ResolveData} {idx : Nat} (h : Grown graph places before)
    (hcreated : build.factory.Created data before idx after) :
    Grown graph (insertNew places idx) after := by
  have hplace := hcreated.place h.inRange
  have hle := h.size_le
  refine ⟨hcreated.inRange h.inRange, by omega, fun i hi => ?_, ?_, fun i hi => ?_⟩
  · rcases mem_insertNew.mp hi with hold | rfl
    · have hlt := h.lt_size i hold
      omega
    · omega
  · rcases hplace with ⟨hidx, hsize⟩ | ⟨rfl, hsize⟩
    · -- a place that is not new to the graph, or has come up already
      rw [hsize, ← h.fresh]
      by_cases hmem : idx ∈ places
      · rw [insertNew_of_mem hmem]
      · have hold : ¬ graph.size ≤ idx := by
          intro hnew
          have hrange : idx ∈ places.filter (graph.size ≤ ·) := by
            rw [h.fresh, List.mem_range'_1]
            omega
          exact hmem (List.mem_filter.mp hrange).1
        rw [insertNew_of_not_mem hmem, List.filter_append]
        simp [hold]
    · have hmem : before.size ∉ places := fun hmem => Nat.lt_irrefl _ (h.lt_size _ hmem)
      have hcount : before.size + 1 - graph.size = before.size - graph.size + 1 := by omega
      have hlast : graph.size + 1 * (before.size - graph.size) = before.size := by omega
      rw [insertNew_of_not_mem hmem, List.filter_append, h.fresh, hsize, hcount,
        List.range'_concat, hlast]
      simp [hle]
  · exact (hcreated.unnamed_get? (Nat.lt_of_lt_of_le hi hle)).trans (h.kept i hi)

end Grown

theorem grown_createAll {requests : List ResolveData} {places : List Nat}
    {work work' : Workspace σ} (hgraph : work.graph.InRange)
    (h : (build.createAll requests []).run.run work = (.ok places, work')) :
    Grown work.graph places work'.graph := by
  refine createAll_induct (P := fun places after => Grown work.graph places after.graph)
    (fun data _ places before idx after hgrown hok => ?_) (.refl hgraph) h
  obtain ⟨final, -, hcreated⟩ := Factory.created_of_ok hok
  exact hgrown.insertNew hcreated

end Build
end AmdBundle
