import AmdBundle.Graph.Order
import Mathlib.Data.Fintype.EquivFin
import Mathlib.Logic.Relation

/-!
# AmdBundle.Proofs.Graph.Order — which modules are put before which

The order of a graph lists every module once (`toposort_perm`).  It has two parts.  The modules from
which no cycle can be reached are placed one after the other, each behind all that it depends on;
those from which a cycle can be reached wait for each other forever and follow in the order of
their places, whether they are on a cycle or only depend on one.  So of two modules on the two ends
of a dependency the one depended on comes first exactly if no cycle can be reached from it or its
place is the smaller one (`toposort_before_iff`).

What carries this through an ordering is `Progress`: what the counts, the queue and the placed
modules are at every moment.
-/

namespace AmdBundle

open Relation

theorem idxOf_lt_idxOf_iff {xs : List Nat} (h : xs.Pairwise (· < ·)) {a b : Nat} (ha : a ∈ xs)
    (hb : b ∈ xs) : xs.idxOf a < xs.idxOf b ↔ a < b := by
  have hmono : ∀ {a b : Nat}, a ∈ xs → b ∈ xs → xs.idxOf a < xs.idxOf b → a < b := by
    intro a b ha hb hlt
    have hget := List.pairwise_iff_getElem.mp h _ _ (List.idxOf_lt_length_iff.mpr ha)
      (List.idxOf_lt_length_iff.mpr hb) hlt
    simpa using hget
  refine ⟨hmono ha hb, fun hlt => ?_⟩
  rcases Nat.lt_trichotomy (xs.idxOf a) (xs.idxOf b) with hbefore | hsame | hbehind
  · exact hbefore
  · have heq := (List.idxOf_inj ha).mp hsame
    omega
  · have hgt := hmono hb ha hbehind
    omega

namespace ModuleGraph

variable {graph : ModuleGraph} {u v idx : Nat} {rest queue placed : List Nat}

/-! ### Dependencies -/

/-- The module at a place has the place of another in its list. -/
def DependsOn (graph : ModuleGraph) (u v : Nat) : Prop :=
  ∃ record, graph.get? u = some record ∧ v ∈ record.dependencies ∧ v < graph.size

/-- A cycle can be reached from the module at a place. -/
def MeetsCycle (graph : ModuleGraph) (u : Nat) : Prop :=
  ∃ w, ReflTransGen graph.DependsOn u w ∧ TransGen graph.DependsOn w w

/-- The places of modules in the list of the module at a place, each as often as it is there. -/
def entries (graph : ModuleGraph) (u : Nat) : List Nat :=
  ((graph.get? u).map graph.dependenciesOf).getD []

theorem lt_size_iff : u < graph.size ↔ ∃ record, graph.get? u = some record := by
  simp [get?, size, List.getElem?_eq_some_iff]

theorem entries_of_get? {record : ModuleRecord} (h : graph.get? u = some record) :
    graph.entries u = graph.dependenciesOf record := by
  simp [entries, h]

theorem dependsOn_iff : graph.DependsOn u v ↔ v ∈ graph.entries u := by
  cases hget : graph.get? u with
  | none => simp [DependsOn, entries, hget]
  | some record => simp [DependsOn, entries_of_get? hget, dependenciesOf, hget]

theorem DependsOn.lt_size (h : graph.DependsOn u v) : u < graph.size ∧ v < graph.size := by
  obtain ⟨record, hget, -, hlt⟩ := h
  exact ⟨lt_size_iff.mpr ⟨record, hget⟩, hlt⟩

theorem MeetsCycle.of_dependsOn (h : graph.DependsOn u v) (hv : graph.MeetsCycle v) :
    graph.MeetsCycle u := by
  obtain ⟨w, hreach, hcycle⟩ := hv
  exact ⟨w, hreach.head h, hcycle⟩

theorem count_dependentsOf (hidx : idx < graph.size) :
    (graph.dependentsOf idx).count u = (graph.entries u).count idx := by
  have hshift : ∀ (records : List ModuleRecord) (k : Nat),
      ((records.zipIdx k).flatMap fun entry =>
        (entry.1.dependencies.filter (· == idx)).map fun _ => entry.2).count u =
        if k ≤ u then (((records[u - k]?).map (·.dependencies)).getD []).count idx else 0 := by
    intro records
    induction records with
    | nil => simp
    | cons record records ih =>
      intro k
      rw [List.zipIdx_cons, List.flatMap_cons, List.count_append, ih, List.map_const',
        List.count_replicate, ← List.countP_eq_length_filter]
      show (if (k == u) = true then record.dependencies.count idx else 0) + _ = _
      rcases Nat.lt_trichotomy k u with hlt | rfl | hgt
      · have hsub : u - k = (u - (k + 1)) + 1 := by omega
        rw [if_neg (by simp; omega), if_pos (by omega), if_pos (by omega), hsub,
          List.getElem?_cons_succ, Nat.zero_add]
      · simp
      · rw [if_neg (by simp; omega), if_neg (by omega), if_neg (by omega)]
  have hall := hshift graph.modules 0
  rw [if_pos (Nat.zero_le u), Nat.sub_zero] at hall
  rw [dependentsOf, hall]
  show (((graph.get? u).map (·.dependencies)).getD []).count idx = _
  cases hget : graph.get? u with
  | none => simp [entries, hget]
  | some record =>
    rw [entries_of_get? hget, dependenciesOf, List.count_filter (by simpa using hidx)]
    rfl

theorem lt_size_of_mem_dependentsOf (hidx : idx < graph.size) (h : u ∈ graph.dependentsOf idx) :
    u < graph.size := by
  have hcount := List.count_pos_iff.mpr h
  rw [count_dependentsOf hidx] at hcount
  exact (dependsOn_iff.mpr (List.count_pos_iff.mp hcount)).lt_size.1

/-! ### One placement -/

theorem placed_foldl_release (us : List Nat) (o : Ordering) :
    (us.foldl Ordering.release o).placed = o.placed := by
  induction us generalizing o with
  | nil => rfl
  | cons u us ih => exact ih (o.release u)

/-- How many entries of a module's list are not placed. -/
def unplaced (graph : ModuleGraph) (placed : List Nat) (u : Nat) : Nat :=
  (graph.entries u).countP fun v => decide (v ∉ placed)

theorem unplaced_eq_zero_iff :
    graph.unplaced placed u = 0 ↔ ∀ v ∈ graph.entries u, v ∈ placed := by
  simp [unplaced, List.countP_eq_zero]

theorem unplaced_nil : graph.unplaced [] u = (graph.entries u).length := by
  simp [unplaced, List.countP_eq_length.mpr]

theorem unplaced_append (h : idx ∉ placed) :
    graph.unplaced (placed ++ [idx]) u + (graph.entries u).count idx = graph.unplaced placed u := by
  rw [unplaced, unplaced]
  induction graph.entries u with
  | nil => rfl
  | cons v entries ih =>
    rw [List.countP_cons, List.countP_cons, List.count_cons, ← ih]
    by_cases hv : v = idx
    · subst hv
      simp [h]
      omega
    · simp [hv]
      omega

/-- What an ordering has come to when the modules in `rest` are still to be told of the last
placement. -/
structure Progress (graph : ModuleGraph) (rest : List Nat) (o : Ordering) : Prop where
  waiting : ∀ u, u < graph.size →
    o.waiting[u]? = some (graph.unplaced o.placed u + rest.count u)
  told : ∀ u ∈ rest, u < graph.size
  nodup : (o.placed ++ o.queue).Nodup
  ready : ∀ u, u ∈ o.placed ++ o.queue ↔
    u < graph.size ∧ graph.unplaced o.placed u + rest.count u = 0
  ordered : ∀ before u behind, o.placed = before ++ u :: behind →
    ∀ v ∈ graph.entries u, v ∈ before

namespace Progress

variable {o : Ordering}

theorem release (h : Progress graph (u :: rest) o) : Progress graph rest (o.release u) := by
  have hu : u < graph.size := h.told u List.mem_cons_self
  have hwaiting := h.waiting u hu
  rw [List.count_cons_self] at hwaiting
  have hlength : u < o.waiting.length := (List.getElem?_eq_some_iff.mp hwaiting).1
  have hleft : (o.waiting[u]?.getD 0) - 1 = graph.unplaced o.placed u + rest.count u := by
    rw [hwaiting, Option.getD_some]
    omega
  have hother : ∀ w, w ≠ u → (u :: rest).count w = rest.count w := fun w hw =>
    List.count_cons_of_ne (Ne.symm hw)
  -- it waits for the placement it is told of, so it was neither placed nor put into the queue
  have hnew : u ∉ o.placed ++ o.queue := by
    rw [h.ready, List.count_cons_self]
    omega
  rw [Ordering.release]
  refine ⟨fun w hw => ?_, fun w hw => h.told w (List.mem_cons_of_mem _ hw), ?_, fun w => ?_,
    h.ordered⟩
  · show (o.waiting.set u _)[w]? = _
    by_cases hwu : w = u
    · subst hwu
      rw [List.getElem?_set_self hlength, hleft]
    · rw [List.getElem?_set_ne (Ne.symm hwu), h.waiting w hw, hother w hwu]
  · show (o.placed ++ if _ then o.queue ++ [u] else o.queue).Nodup
    split
    · rw [← List.append_assoc]
      exact List.nodup_append.mpr ⟨h.nodup, List.nodup_singleton u, by
        rintro a ha b hb rfl
        exact hnew (List.mem_singleton.mp hb ▸ ha)⟩
    · exact h.nodup
  -- it joins the queue exactly if that was the last placement it waited for
  · have hready := h.ready w
    show w ∈ o.placed ++ (if _ then o.queue ++ [u] else o.queue) ↔ _
    rw [hleft]
    by_cases hwu : w = u
    · subst hwu
      split
      · rename_i hzero
        simp [hu, hzero]
      · rename_i hzero
        exact iff_of_false hnew fun h => hzero h.2
    · rw [hother w hwu] at hready
      split
      · rw [← List.append_assoc, List.mem_append, List.mem_singleton, hready]
        simp [hwu]
      · exact hready

theorem foldl_release (h : Progress graph rest o) :
    Progress graph [] (rest.foldl Ordering.release o) := by
  induction rest generalizing o with
  | nil => exact h
  | cons u rest ih => exact ih h.release

theorem place (h : Progress graph [] o) (hqueue : o.queue = idx :: queue) :
    Progress graph (graph.dependentsOf idx)
      { o with queue, placed := o.placed ++ [idx] } := by
  have hnodup := h.nodup
  rw [hqueue] at hnodup
  have hnew : idx ∉ o.placed := fun hmem =>
    (List.nodup_append.mp hnodup).2.2 idx hmem idx List.mem_cons_self rfl
  obtain ⟨hidx, hzero⟩ := (h.ready idx).mp (by simp [hqueue])
  have hentries : ∀ v ∈ graph.entries idx, v ∈ o.placed :=
    unplaced_eq_zero_iff.mp (by simpa using hzero)
  -- those that depend on the module are the ones still to be told
  have hneed : ∀ u, graph.unplaced (o.placed ++ [idx]) u + (graph.dependentsOf idx).count u =
      graph.unplaced o.placed u := fun u => by
    rw [count_dependentsOf hidx, unplaced_append hnew]
  refine ⟨fun u hu => ?_, fun u hu => lt_size_of_mem_dependentsOf hidx hu, ?_, fun u => ?_, ?_⟩
  · have hwaiting := h.waiting u hu
    rw [List.count_nil, Nat.add_zero] at hwaiting
    exact hwaiting.trans (congrArg some (hneed u).symm)
  · show (o.placed ++ [idx] ++ queue).Nodup
    rw [List.append_assoc]
    exact hnodup
  · have hready := h.ready u
    rw [List.count_nil, Nat.add_zero, hqueue] at hready
    show u ∈ o.placed ++ [idx] ++ queue ↔ _
    rw [List.append_assoc, hneed u]
    exact hready
  -- the module placed last is behind all that it depends on
  · intro before u behind hplaced
    have hplaced : o.placed ++ [idx] = before ++ u :: behind := hplaced
    rcases List.eq_nil_or_concat behind with rfl | ⟨front, last, rfl⟩
    · obtain ⟨rfl, hlast⟩ := List.append_inj' hplaced rfl
      rw [← List.cons.inj hlast |>.1]
      exact hentries
    · have hsplit : o.placed ++ [idx] = (before ++ u :: front) ++ [last] := by
        rw [hplaced]
        simp
      exact h.ordered before u front (List.append_inj' hsplit rfl).1

theorem length_le (h : Progress graph [] o) :
    o.placed.length + o.queue.length ≤ graph.size := by
  rw [← List.length_append, ← List.length_range (n := graph.size)]
  refine (h.nodup.subperm fun u hu => ?_).length_le
  exact List.mem_range.mpr ((h.ready u).mp hu).1

/-- With fuel for the modules that are not placed, all that can be placed are. -/
theorem run {fuel : Nat} (h : Progress graph [] o)
    (hfuel : graph.size ≤ o.placed.length + fuel) :
    Progress graph [] (Ordering.run graph fuel o) ∧ (Ordering.run graph fuel o).queue = [] := by
  induction fuel generalizing o with
  | zero =>
    have hlength := h.length_le
    exact ⟨h, List.length_eq_zero_iff.mp (by rw [Ordering.run]; omega)⟩
  | succ fuel ih =>
    rw [Ordering.run]
    cases hqueue : o.queue with
    | nil => exact ⟨h, hqueue⟩
    | cons idx queue =>
      refine ih (h.place hqueue).foldl_release ?_
      rw [placed_foldl_release]
      simp
      omega

theorem startOrdering (graph : ModuleGraph) : Progress graph [] graph.startOrdering := by
  have hwaiting : ∀ u, u < graph.size →
      graph.startOrdering.waiting[u]? = some (graph.unplaced [] u) := by
    intro u hu
    obtain ⟨record, hget⟩ := lt_size_iff.mp hu
    have hrecord : graph.modules[u]? = some record := hget
    simp [ModuleGraph.startOrdering, hrecord, unplaced_nil, entries_of_get? hget]
  refine ⟨hwaiting, by simp, ?_, fun u => ?_, ?_⟩
  · exact List.nodup_range.filter _
  · show u ∈ (List.range graph.size).filter _ ↔ _
    rw [List.mem_filter, List.mem_range]
    refine and_congr_right fun hu => ?_
    have hcount := hwaiting u hu
    show (graph.startOrdering.waiting[u]? == some 0) = true ↔ graph.unplaced [] u + 0 = 0
    rw [hcount]
    simp
  · intro before u behind hnil
    simp [ModuleGraph.startOrdering] at hnil

end Progress

/-! ### The modules that are placed -/

def settled (graph : ModuleGraph) : List Nat :=
  (Ordering.run graph graph.size graph.startOrdering).placed

theorem progress_settled (graph : ModuleGraph) :
    Progress graph [] (Ordering.run graph graph.size graph.startOrdering) ∧
      (Ordering.run graph graph.size graph.startOrdering).queue = [] :=
  (Progress.startOrdering graph).run (Nat.le_add_left _ _)

theorem nodup_settled (graph : ModuleGraph) : graph.settled.Nodup :=
  (List.nodup_append.mp (progress_settled graph).1.nodup).1

theorem mem_settled_iff_entries :
    u ∈ graph.settled ↔ u < graph.size ∧ ∀ v, graph.DependsOn u v → v ∈ graph.settled := by
  have hready := (progress_settled graph).1.ready u
  rw [(progress_settled graph).2, List.append_nil, List.count_nil, Nat.add_zero,
    unplaced_eq_zero_iff] at hready
  simp only [dependsOn_iff]
  exact hready

/-- What a placed module depends on was placed before it. -/
theorem idxOf_settled_lt (h : graph.DependsOn u v) (hu : u ∈ graph.settled) :
    graph.settled.idxOf v < graph.settled.idxOf u := by
  obtain ⟨before, behind, hsplit⟩ := List.append_of_mem hu
  have hv : v ∈ before :=
    (progress_settled graph).1.ordered before u behind hsplit v (dependsOn_iff.mp h)
  have hnew : u ∉ before := by
    intro hmem
    have hnodup := nodup_settled graph
    rw [hsplit] at hnodup
    exact (List.nodup_append.mp hnodup).2.2 u hmem u List.mem_cons_self rfl
  rw [hsplit, List.idxOf_append_of_mem hv, List.idxOf_append_of_notMem hnew]
  have hlt := List.idxOf_lt_length_iff.mpr hv
  omega

theorem mem_settled_of_reflTransGen (h : ReflTransGen graph.DependsOn u v)
    (hu : u ∈ graph.settled) : v ∈ graph.settled := by
  induction h with
  | refl => exact hu
  | tail _ hstep ih => exact (mem_settled_iff_entries.mp ih).2 _ hstep

theorem idxOf_settled_lt_of_transGen (h : TransGen graph.DependsOn u v) (hu : u ∈ graph.settled) :
    graph.settled.idxOf v < graph.settled.idxOf u := by
  induction h with
  | single hstep => exact idxOf_settled_lt hstep hu
  | tail hpath hstep ih =>
    exact (idxOf_settled_lt hstep (mem_settled_of_reflTransGen hpath.to_reflTransGen hu)).trans ih

theorem mem_settled_of_not_meetsCycle (hu : u < graph.size) (hcycle : ¬ graph.MeetsCycle u) :
    u ∈ graph.settled := by
  let Free : Type := { w : Fin graph.size // ¬ graph.MeetsCycle w }
  let below (a b : Free) : Prop := TransGen graph.DependsOn b.1 a.1
  have hwf : WellFounded below := by
    have : Finite Free := Subtype.finite
    have : IsTrans Free below := ⟨fun _ _ _ hab hbc => hbc.trans hab⟩
    have : Std.Irrefl below := ⟨fun a h => a.2 ⟨a.1, .refl, h⟩⟩
    exact Finite.wellFounded_of_trans_of_irrefl below
  suffices hall : ∀ a : Free, (a.1 : Nat) ∈ graph.settled from hall ⟨⟨u, hu⟩, hcycle⟩
  intro a
  induction a using hwf.induction with
  | _ a ih =>
    refine mem_settled_iff_entries.mpr ⟨a.1.2, fun v hv => ?_⟩
    exact ih ⟨⟨v, hv.lt_size.2⟩, fun hmeets => a.2 (hmeets.of_dependsOn hv)⟩ (.single hv)

/-- The modules placed in the end are those from which no cycle can be reached. -/
theorem mem_settled_iff : u ∈ graph.settled ↔ u < graph.size ∧ ¬ graph.MeetsCycle u := by
  refine ⟨fun hu => ⟨(mem_settled_iff_entries.mp hu).1, ?_⟩,
    fun h => mem_settled_of_not_meetsCycle h.1 h.2⟩
  rintro ⟨w, hreach, hcycle⟩
  exact absurd (idxOf_settled_lt_of_transGen hcycle (mem_settled_of_reflTransGen hreach hu))
    (Nat.lt_irrefl _)

/-! ### The whole order -/

def unsettled (graph : ModuleGraph) : List Nat :=
  (List.range graph.size).filter fun idx => !graph.settled.contains idx

theorem toposort_eq (graph : ModuleGraph) : graph.toposort = graph.settled ++ graph.unsettled :=
  rfl

theorem mem_unsettled_iff : u ∈ graph.unsettled ↔ u < graph.size ∧ u ∉ graph.settled := by
  simp [unsettled]

theorem pairwise_unsettled (graph : ModuleGraph) : graph.unsettled.Pairwise (· < ·) :=
  List.pairwise_lt_range.filter _

theorem toposort_perm (graph : ModuleGraph) : graph.toposort.Perm (List.range graph.size) := by
  have hnodup : graph.toposort.Nodup := by
    rw [toposort_eq]
    refine List.nodup_append.mpr ⟨nodup_settled graph, List.nodup_range.filter _, ?_⟩
    rintro a ha b hb rfl
    exact (mem_unsettled_iff.mp hb).2 ha
  refine (List.perm_ext_iff_of_nodup hnodup List.nodup_range).mpr fun u => ?_
  rw [toposort_eq, List.mem_append, mem_unsettled_iff, List.mem_range]
  constructor
  · rintro (hu | ⟨hu, -⟩)
    · exact (mem_settled_iff_entries.mp hu).1
    · exact hu
  · intro hu
    by_cases hmem : u ∈ graph.settled
    · exact .inl hmem
    · exact .inr ⟨hu, hmem⟩

/-- **Order.**  Every module is listed once, and of a module and one that it depends on the latter
comes first exactly if no cycle can be reached from it or its place is the smaller one. -/
theorem toposort_before_iff (graph : ModuleGraph) {u v : Nat} (h : graph.DependsOn u v) :
    graph.toposort.Perm (List.range graph.size) ∧
      (graph.toposort.idxOf v < graph.toposort.idxOf u ↔ ¬ graph.MeetsCycle v ∨ v < u) := by
  refine ⟨toposort_perm graph, ?_⟩
  have hlt := h.lt_size
  rw [toposort_eq]
  by_cases hv : v ∈ graph.settled
  · have hfree : ¬ graph.MeetsCycle v := (mem_settled_iff.mp hv).2
    refine iff_of_true ?_ (.inl hfree)
    rw [List.idxOf_append_of_mem hv]
    by_cases hu : u ∈ graph.settled
    · rw [List.idxOf_append_of_mem hu]
      exact idxOf_settled_lt h hu
    · rw [List.idxOf_append_of_notMem hu]
      have hend := List.idxOf_lt_length_iff.mpr hv
      omega
  · -- what depends on a module that waits forever waits forever
    have hu : u ∉ graph.settled := fun hu => hv ((mem_settled_iff_entries.mp hu).2 v h)
    have hmeets : graph.MeetsCycle v := by
      by_contra hfree
      exact hv (mem_settled_iff.mpr ⟨hlt.2, hfree⟩)
    rw [List.idxOf_append_of_notMem hv, List.idxOf_append_of_notMem hu, Nat.add_lt_add_iff_left,
      idxOf_lt_idxOf_iff (pairwise_unsettled graph) (mem_unsettled_iff.mpr ⟨hlt.2, hv⟩)
        (mem_unsettled_iff.mpr ⟨hlt.1, hu⟩)]
    simp [hmeets]

/-! ### Behind a cycle -/

/-- The first module depends on the second, which depends on itself; the third on the last. -/
def besideLoop : ModuleGraph where
  modules := [{ dependencies := [1] }, { dependencies := [1] }, { dependencies := [3] }, {}]

theorem toposort_besideLoop : besideLoop.toposort = [3, 2, 0, 1] := by decide

theorem dependsOn_besideLoop : besideLoop.DependsOn 0 1 ∧ besideLoop.DependsOn 2 3 :=
  ⟨dependsOn_iff.mpr (by decide), dependsOn_iff.mpr (by decide)⟩

/-- Away from the loop the order is as it should be. -/
theorem toposort_before_besideLoop :
    besideLoop.DependsOn 2 3 ∧
      (besideLoop.toposort.idxOf 3 < besideLoop.toposort.idxOf 2 ↔
        ¬ besideLoop.MeetsCycle 3 ∨ 3 < 2) :=
  ⟨dependsOn_besideLoop.2, (toposort_before_iff besideLoop dependsOn_besideLoop.2).2⟩

/-- A module that only depends on one in a loop comes before it, although the dependency is on no
cycle. -/
theorem toposort_behind_loop :
    besideLoop.DependsOn 0 1 ∧ ¬ ReflTransGen besideLoop.DependsOn 1 0 ∧
      ¬ besideLoop.toposort.idxOf 1 < besideLoop.toposort.idxOf 0 := by
  refine ⟨dependsOn_besideLoop.1, fun hreach => ?_, by rw [toposort_besideLoop]; decide⟩
  -- from the second module nothing else can be reached
  have hstays : ∀ w, ReflTransGen besideLoop.DependsOn 1 w → w = 1 := by
    intro w hw
    induction hw with
    | refl => rfl
    | tail _ hstep ih =>
      subst ih
      have hentry := dependsOn_iff.mp hstep
      have hlist : besideLoop.entries 1 = [1] := by decide
      rw [hlist] at hentry
      exact List.mem_singleton.mp hentry
  exact absurd (hstays 0 hreach) (by decide)

end ModuleGraph
end AmdBundle
