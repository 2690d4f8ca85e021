import AmdBundle.Proofs.Build.Site
import AmdBundle.Proofs.Build.Steps
import Mathlib.Data.Prod.Lex
import Mathlib.Data.Set.Card
import Mathlib.Order.OrderIsoNat

/-!
# AmdBundle.Proofs.Build.Ends — when builds end

A module is handled once, so a build goes on only as long as there are new identifiers.  Those that
modules get which have no absolute id, or one that is a path, are finitely many from the start
(`Site.settled`); so are those that come of requests which mean the same from everywhere.  What is
left are modules that stray: `Site.ends_iff` says that a build ends exactly if it comes to such
modules no more from some step on.

The proof counts what of `Site.settled` has not been handled, and then, while that stays the same,
what of all identifiers has not been handled (`Site.rank`); a step from a module that does not stray
makes this smaller (`Site.rank_lt`).
-/

namespace AmdBundle
namespace Site

open AbsMid Build Dojo FileResolver Text

variable {site : Site} {entry : String} {n : Nat} {state next : BuildState Cache} {idx : Nat}
  {queue : List Nat} {record : ModuleRecord} {named : Set String}

/-! ### What every state keeps -/

/-- What holds when so many modules have been handled: these are the first of those that have been
in the queue, and the others are in it. -/
structure Progress (site : Site) (entry : String) (n : Nat) (state : BuildState Cache) : Prop where
  tracked : Tracked site.files site.disk.toFileSystem (site.own entry) state.work
  queue : state.queue = state.seen.drop n
  handled : n ≤ state.seen.length
  nodup : state.seen.Nodup
  inRange : ∀ i ∈ state.seen, i < state.work.graph.size

theorem progress_start (h : site.build.start entry [] = .ok (idx, state)) :
    Progress site entry 0 state := by
  unfold start at h
  split at h
  · simp at h
  · rename_i found work hcreate
    obtain ⟨rfl, rfl⟩ := Prod.mk.inj (Except.ok.inj h)
    let request : PlainRequest := ⟨site.cwd, entry, [.entry]⟩
    have hown : ∀ bare ∈ ownRequests site.options.noModuleRequest request.request,
        bare ∈ site.own entry := fun bare hbare => mem_own List.mem_cons_self hbare
    have hnamed : ∀ issuer, issuerContext? request.data = some issuer →
        resolve site.loader.toLoader request.request issuer ∈ Set.univ := fun _ _ => trivial
    rw [factory_build] at hcreate
    obtain ⟨htracked, hlt, -⟩ := Tracked.createFrom hown hnamed tracked_empty hcreate
    exact ⟨htracked, rfl, Nat.zero_le _, by simp, by simpa using hlt⟩

/-- What creating modules at the places has done to a workspace: new identifiers are made of
requests of the adapter's own, or of absolute ids from the set. -/
structure Created (site : Site) (entry : String) (named : Set String) (work : Workspace Cache)
    (places : List Nat) (after : Workspace Cache) : Prop where
  tracked : Tracked site.files site.disk.toFileSystem (site.own entry) after
  extends_ids : work.graph.Extends
    (identifiersOf (site.own entry ∪ named) site.disk.toFileSystem.paths) after.graph
  nodup : places.Nodup
  inRange : ∀ i ∈ places, i < after.graph.size

theorem Created.insertNew {work before after : Workspace Cache} {places : List Nat}
    (h : Created site entry named work places before) (request : PlainRequest)
    (hrequest : request.request ∈ site.requests entry)
    (hnamed : ∀ issuer, issuerContext? request.data = some issuer →
      resolve site.loader.toLoader request.request issuer ∈ named)
    (hcreate : site.build.factory.createFrom request.data before = (.ok idx, after)) :
    Created site entry named work (insertNew places idx) after := by
  rw [factory_build] at hcreate
  obtain ⟨htracked, hlt, hmore⟩ :=
    Tracked.createFrom (fun bare hbare => mem_own hrequest hbare) hnamed h.tracked hcreate
  refine ⟨htracked, h.extends_ids.trans hmore, nodup_insertNew h.nodup idx, fun i hi => ?_⟩
  rcases mem_insertNew.mp hi with hold | rfl
  · exact Nat.lt_of_lt_of_le (h.inRange i hold) hmore.size_le
  · exact hlt

/-- All requests of a module: absolute ids come of what the module refers to. -/
theorem created_createAll {work after : Workspace Cache} {output : FileOutput} {places : List Nat}
    (h : Tracked site.files site.disk.toFileSystem (site.own entry) work)
    (hresource : record.resource ∈ site.disk.toFileSystem.paths)
    (hwalk : site.build.walkModule record = .ok output)
    (hnamed : ∀ request ∈ site.requests entry, output.RefersTo request →
      ∀ issuer, resolve site.loader.toLoader request issuer ∈ named)
    (hcreate : (site.build.createAll
      (output.dependencies.filterMap (requestData? record.context)) []).run.run work =
        (.ok places, after)) :
    Created site entry named work places after := by
  have hstart : Created site entry named work [] work :=
    ⟨h, .of_eq fun _ => rfl, List.nodup_nil, by simp⟩
  refine createAll_induct ?_ hstart hcreate
  intro data hdata places before idx after hcreated hok
  obtain ⟨request, rfl, hrequest⟩ := mem_requests entry hresource hwalk hdata
  refine hcreated.insertNew request hrequest (fun issuer hissuer => ?_) hok
  exact hnamed _ hrequest (refersTo_of_issuerContext? hdata hissuer) issuer

theorem tracked_modify {work : Workspace Cache} {fs : FileSystem} {files : FileResolver}
    {own : Set String} (h : Tracked files fs own work) (idx : Nat) (output : FileOutput)
    (places : List Nat) :
    Tracked files fs own { work with graph := work.graph.modify idx (finished output places) } := by
  refine ⟨h.consistent.modify (fun _ => rfl) (fun _ => rfl) fun _ => rfl, h.sound, ?_⟩
  intro i record hrecord
  rw [ModuleGraph.get?_modify] at hrecord
  split at hrecord
  · obtain ⟨old, hold, rfl⟩ := Option.map_eq_some_iff.mp hrecord
    exact ⟨(h.stems i old hold).resource, (h.stems i old hold).request⟩
  · exact h.stems i record hrecord

theorem Progress.drop_eq (h : Progress site entry n state) (hqueue : state.queue = idx :: queue) :
    state.seen.drop n = idx :: queue :=
  h.queue.symm.trans hqueue

theorem Progress.getElem?_eq (h : Progress site entry n state)
    (hqueue : state.queue = idx :: queue) : state.seen[n]? = some idx := by
  have hhead : (state.seen.drop n)[0]? = some idx := by
    rw [h.drop_eq hqueue]
    rfl
  rwa [List.getElem?_drop, Nat.add_zero] at hhead

theorem Progress.handles (h : Progress site entry n state)
    (hnext : site.build.next? state = some next) :
    ∃ idx queue record, site.build.Handles state idx queue record next := by
  rcases next?_eq_some hnext with hhandles | ⟨idx, queue, hqueue, hnone, -⟩
  · exact hhandles
  · have hmem : idx ∈ state.seen := List.mem_of_getElem? (h.getElem?_eq hqueue)
    obtain ⟨record, hrecord⟩ := ModuleGraph.exists_get?_of_lt_size (h.inRange idx hmem)
    rw [hrecord] at hnone
    exact absurd hnone (by simp)

/-- Handling a module keeps all that, and adds only identifiers of what the module asks for. -/
theorem Progress.step (h : Progress site entry n state)
    (hhandles : site.build.Handles state idx queue record next)
    (hnamed : ∀ output, site.build.walkModule record = .ok output →
      ∀ request ∈ site.requests entry, output.RefersTo request →
        ∀ issuer, resolve site.loader.toLoader request issuer ∈ named) :
    Progress site entry (n + 1) next ∧
      state.work.graph.Extends
        (identifiersOf (site.own entry ∪ named) site.disk.toFileSystem.paths) next.work.graph := by
  obtain ⟨output, places, work, hwalk, hcreate, hwork, hqueue, hseen⟩ := hhandles.created
  have hresource := (h.tracked.stems idx record hhandles.found).resource
  have hcreated := created_createAll h.tracked hresource hwalk (hnamed output hwalk) hcreate
  have hlt : n < state.seen.length :=
    (List.getElem?_eq_some_iff.mp (h.getElem?_eq hhandles.head)).1
  have hrest : state.seen.drop (n + 1) = queue := by
    rw [← List.tail_drop, h.drop_eq hhandles.head, List.tail_cons]
  have hsize : next.work.graph.size = work.graph.size := by
    rw [hwork, ModuleGraph.size_modify]
  refine ⟨⟨?_, ?_, ?_, ?_, ?_⟩, ?_⟩
  · rw [hwork]
    exact tracked_modify hcreated.tracked idx output places
  · rw [hqueue, hseen, List.drop_append_of_le_length hlt, hrest]
  · rw [hseen, List.length_append]
    omega
  · rw [hseen]
    exact nodup_append_freshPlaces h.nodup hcreated.nodup
  · rw [hseen, hsize]
    intro i hi
    rcases List.mem_append.mp hi with hold | hnew
    · exact Nat.lt_of_lt_of_le (h.inRange i hold) hcreated.extends_ids.size_le
    · exact hcreated.inRange i (mem_of_mem_freshPlaces hnew)
  · refine hcreated.extends_ids.trans (.of_eq fun i => ?_)
    rw [hwork]
    have hkept : ∀ old, (finished output places old).request = old.request := fun _ => rfl
    exact ModuleGraph.identifierAt?_modify hkept i

theorem progress_of_stateAfter? (h : site.build.stateAfter? entry [] n = some state) :
    Progress site entry n state := by
  refine stateAfter?_induct (P := Progress site entry) (fun _ _ => progress_start) ?_ h
  intro n state next hprogress hnext
  obtain ⟨idx, queue, record, hhandles⟩ := hprogress.handles hnext
  have hnamed : ∀ output, site.build.walkModule record = .ok output →
      ∀ request ∈ site.requests entry, output.RefersTo request →
        ∀ issuer, resolve site.loader.toLoader request issuer ∈ Set.univ :=
    fun _ _ _ _ _ _ => trivial
  exact (hprogress.step hhandles hnamed).1

/-! ### What gets less -/

def handledIds (n : Nat) (state : BuildState Cache) : Set String :=
  {request | ∃ i ∈ state.seen.take n, state.work.graph.identifierAt? i = some request}

def knownIds (state : BuildState Cache) : Set String :=
  {request | ∃ i, state.work.graph.identifierAt? i = some request}

theorem finite_knownIds (state : BuildState Cache) : (knownIds state).Finite := by
  refine (List.finite_toSet (state.work.graph.modules.map ModuleRecord.request)).subset ?_
  exact fun request h => ModuleGraph.exists_identifierAt?_iff.mp h

theorem handledIds_step (h : Progress site entry n state)
    (hhandles : site.build.Handles state idx queue record next) {ids : Set String}
    (hextends : state.work.graph.Extends ids next.work.graph) :
    record.request ∉ handledIds n state ∧
      handledIds (n + 1) next = insert record.request (handledIds n state) := by
  obtain ⟨-, places, -, -, -, -, -, hseen⟩ := hhandles.created
  have hget := h.getElem?_eq hhandles.head
  have hsplit : state.seen.take (n + 1) = state.seen.take n ++ [idx] := by
    rw [List.take_add_one, hget, Option.toList_some]
  have hturn : next.seen.take (n + 1) = state.seen.take n ++ [idx] := by
    rw [hseen, List.take_append_of_le_length (List.getElem?_eq_some_iff.mp hget).1, hsplit]
  have hself : state.work.graph.identifierAt? idx = some record.request := by
    rw [ModuleGraph.identifierAt?, hhandles.found, Option.map_some]
  -- no creation changes the identifier of a module that has been in the queue
  have hkept : ∀ i ∈ state.seen.take n ++ [idx],
      next.work.graph.identifierAt? i = state.work.graph.identifierAt? i := by
    intro i hi
    rw [← hsplit] at hi
    exact hextends.identifierAt?_eq (h.inRange i (List.mem_of_mem_take hi))
  constructor
  · rintro ⟨i, hi, hrequest⟩
    obtain rfl := h.tracked.consistent.idx_eq_of_identifierAt? hrequest hself
    have hnodup : (state.seen.take (n + 1)).Nodup := h.nodup.take
    rw [hsplit] at hnodup
    exact (List.nodup_append.mp hnodup).2.2 i hi i List.mem_cons_self rfl
  · ext request
    rw [handledIds, hturn]
    constructor
    · rintro ⟨i, hi, hrequest⟩
      rw [hkept i hi] at hrequest
      rcases List.mem_append.mp hi with hold | hidx
      · exact .inr ⟨i, hold, hrequest⟩
      · obtain rfl := List.mem_singleton.mp hidx
        exact .inl (Option.some.inj (hrequest.symm.trans hself))
    · rintro (rfl | ⟨i, hi, hrequest⟩)
      · have hidx : idx ∈ state.seen.take n ++ [idx] := by simp
        exact ⟨idx, hidx, (hkept idx hidx).trans hself⟩
      · have hmem : i ∈ state.seen.take n ++ [idx] := List.mem_append.mpr (.inl hi)
        exact ⟨i, hmem, (hkept i hmem).trans hrequest⟩

/-- The module whose turn it is has a settled identifier, or strays, or refers to others by requests
that mean the same from everywhere. -/
theorem settled_or_anchored (h : Progress site entry n state)
    (hhandles : site.build.Handles state idx queue record next)
    (hstray : ¬ site.build.Strays record) :
    record.request ∈ site.settled entry ∨
      ∀ output, site.build.walkModule record = .ok output →
        ∀ request ∈ site.requests entry, output.RefersTo request →
          ∀ issuer, resolve site.loader.toLoader request issuer ∈ site.anchored entry := by
  obtain ⟨hresource, request, horigin, hrequest⟩ := h.tracked.stems idx record hhandles.found
  rcases horigin with hown | hmid
  · exact .inl (.inr (hrequest ▸ Set.mem_image2_of_mem (.inl hown) hresource))
  · cases hplain : hasChar '!' request || hasChar '?' request with
    | false =>
      rw [Bool.or_eq_false_iff] at hplain
      rw [identifier_of_plain hplain.1 hplain.2] at hrequest
      exact .inl (.inl (hrequest ▸ hresource))
    | true =>
      refine .inr fun output hwalk other hother hrefers issuer => ?_
      refine mem_anchored hother (Bool.eq_false_iff.mpr fun hrelative => hstray ?_) issuer
      exact ⟨request, output, other, hmid, hplain, hwalk, hrefers, hrelative⟩

/-- How much has not been handled: of the settled identifiers, and then of these and all others. -/
noncomputable def rank (site : Site) (entry : String) (n : Nat) (state : BuildState Cache) :
    ℕ ×ₗ ℕ :=
  toLex ((site.settled entry \ handledIds n state).ncard,
    ((knownIds state ∪ site.settled entry) \ handledIds n state).ncard)

theorem ncard_diff_insert_lt {all handled : Set String} {x : String} (hall : all.Finite)
    (hx : x ∈ all) (hnew : x ∉ handled) :
    (all \ insert x handled).ncard < (all \ handled).ncard := by
  have hsubset : all \ insert x handled ⊆ all \ handled :=
    fun y hy => ⟨hy.1, fun hold => hy.2 (.inr hold)⟩
  refine Set.ncard_lt_ncard ⟨hsubset, fun hback => ?_⟩ (hall.subset fun y hy => hy.1)
  exact (hback ⟨hx, hnew⟩).2 (.inl rfl)

/-- A step from a module that does not stray leaves less to be handled. -/
theorem rank_lt (h : Progress site entry n state) (hnext : site.build.next? state = some next)
    (hstray : ¬ site.build.StraysNext state) :
    site.rank entry (n + 1) next < site.rank entry n state := by
  obtain ⟨idx, queue, record, hhandles⟩ := h.handles hnext
  have hplain : ¬ site.build.Strays record := fun hstrays =>
    hstray ⟨idx, queue, record, hhandles.head, hhandles.found, hstrays⟩
  have hfinite := site.finite_settled entry
  rw [rank, rank, Prod.Lex.toLex_lt_toLex]
  rcases settled_or_anchored h hhandles hplain with hsettled | hanchored
  · -- one less of the settled identifiers is left, whatever has been added
    have hnamed : ∀ output, site.build.walkModule record = .ok output →
        ∀ request ∈ site.requests entry, output.RefersTo request →
          ∀ issuer, resolve site.loader.toLoader request issuer ∈ Set.univ :=
      fun _ _ _ _ _ _ => trivial
    obtain ⟨hnew, hids⟩ := handledIds_step h hhandles (h.step hhandles hnamed).2
    rw [hids]
    exact .inl (ncard_diff_insert_lt hfinite hsettled hnew)
  · -- nothing has been added but settled identifiers, and one less of all is left
    have hextends := (h.step hhandles hanchored).2
    obtain ⟨hnew, hids⟩ := handledIds_step h hhandles hextends
    have hknown : knownIds next ∪ site.settled entry = knownIds state ∪ site.settled entry := by
      ext request
      constructor
      · rintro (⟨i, hi⟩ | hsettled)
        · rcases hextends.added i request hi with hold | hmade
          · exact .inl ⟨i, hold⟩
          · exact .inr (.inr hmade)
        · exact .inr hsettled
      · rintro (⟨i, hi⟩ | hsettled)
        · exact .inl ⟨i, hextends.kept i request hi⟩
        · exact .inr hsettled
    have hself : record.request ∈ knownIds state ∪ site.settled entry :=
      .inl ⟨idx, by rw [ModuleGraph.identifierAt?, hhandles.found, Option.map_some]⟩
    have hless : (site.settled entry \ insert record.request (handledIds n state)).ncard ≤
        (site.settled entry \ handledIds n state).ncard := by
      refine Set.ncard_le_ncard (fun y hy => ⟨hy.1, fun hold => hy.2 (.inr hold)⟩) ?_
      exact hfinite.subset fun y hy => hy.1
    rw [hids, hknown]
    rcases Nat.lt_or_eq_of_le hless with hlt | heq
    · exact .inl hlt
    · have hall := (finite_knownIds state).union hfinite
      exact .inr ⟨heq, ncard_diff_insert_lt hall hself hnew⟩

/-! ### The end of a build -/

/-- States of which none has a module that strays next are finitely many. -/
theorem exists_stateAfter?_eq_none
    (hplain : ∀ m ≥ n, ∀ state, site.build.stateAfter? entry [] m = some state →
      ¬ site.build.StraysNext state) :
    ∃ m, site.build.stateAfter? entry [] m = none := by
  by_contra hendless
  have hsome : ∀ k, ∃ state, site.build.stateAfter? entry [] (n + k) = some state := fun k =>
    Option.ne_none_iff_exists'.mp fun hnone => hendless ⟨n + k, hnone⟩
  choose states hstates using hsome
  have hnext : ∀ k, site.build.next? (states k) = some (states (k + 1)) := by
    intro k
    have hsucc : site.build.stateAfter? entry [] (n + k + 1) =
        (site.build.stateAfter? entry [] (n + k)).bind site.build.next? :=
      stateAfter?_succ entry [] (n + k)
    rw [hstates k, Option.bind_some] at hsucc
    exact hsucc.symm.trans (hstates (k + 1))
  -- the rank would go down for ever
  have hless : ∀ k, site.rank entry (n + (k + 1)) (states (k + 1)) <
      site.rank entry (n + k) (states k) := fun k =>
    rank_lt (progress_of_stateAfter? (hstates k)) (hnext k)
      (hplain (n + k) (Nat.le_add_right n k) (states k) (hstates k))
  exact not_strictAnti_of_wellFoundedLT (fun k => site.rank entry (n + k) (states k))
    (strictAnti_nat_of_succ_lt hless)

/-- **End.**  A build for the loader, over finitely many files with a finite program each, whatever
its settings and its entry, ends exactly if from some step on no module is handled that has a
loader or a query in its absolute id and names another module relative to that. -/
theorem ends_iff (site : Site) (entry : String) :
    (∃ fuel output, site.build.build? fuel entry [] = some output) ↔
      ∃ n, ∀ m ≥ n, ∀ state, site.build.stateAfter? entry [] m = some state →
        ¬ site.build.StraysNext state := by
  rw [exists_build?_iff]
  constructor
  · rintro ⟨n, hnone⟩
    refine ⟨n, fun m hm state hstate => ?_⟩
    rw [stateAfter?_eq_none hm hnone] at hstate
    simp at hstate
  · rintro ⟨n, hplain⟩
    exact exists_stateAfter?_eq_none hplain

end Site
end AmdBundle
