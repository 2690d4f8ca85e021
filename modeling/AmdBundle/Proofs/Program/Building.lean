import AmdBundle.Proofs.Program.Layout
import AmdBundle.Proofs.Walk.Calls
import Mathlib.Data.List.Forall2
import Mathlib.Data.List.Nodup

/-!
# AmdBundle.Proofs.Program.Building — programs that a builder builds

Building moves a builder by the width of what it builds, gives out one id for every call, and puts
the spans where the layout says, with and without a check of the sums: `Draft.Built`, `DraftsBuilt`
and `NodesBuilt`, with one lemma for each shape.  A tree that a source has room for is always built
(`exists_nodesBuilt`, by induction on the tree), and for a program that starts at the first place
this is `build_layout`: no sum is cut off and the ids are distinct, but spans reach into each other
where calls follow each other or stand in front.
-/

namespace AmdBundle

/-! ### Running a builder -/

section Runs

variable {m : Type → Type} [Monad m] {α β : Type} {b middle behind after : Builder}

/-- The steps go through from one builder to another, with this result. -/
def GoesTo (steps : StateT Builder m α) (b : Builder) (result : α) (after : Builder) : Prop :=
  steps.run b = pure (result, after)

theorem GoesTo.pure (result : α) (b : Builder) :
    GoesTo (Pure.pure result : StateT Builder m α) b result b := rfl

variable [LawfulMonad m]

theorem GoesTo.bind {steps : StateT Builder m α} {rest : α → StateT Builder m β} {x : α} {y : β}
    (h : GoesTo steps b x middle) (h' : GoesTo (rest x) middle y after) :
    GoesTo (steps >>= rest) b y after := by
  unfold GoesTo at h h' ⊢
  rw [StateT.run_bind, h, pure_bind]
  exact h'

variable {calls : Builder.Calls (StateT Builder m)} {d : Draft} {ds : List Draft} {e : Expr}
  {es : List Expr} {program block handler : List DraftNode}
  {nodes blockNodes handlerNodes : List Node}

theorem GoesTo.cons (hfirst : GoesTo (d.buildWith calls) b e middle)
    (hrest : GoesTo (buildExprsWith calls ds) middle es after) :
    GoesTo (buildExprsWith calls (d :: ds)) b (e :: es) after := by
  rw [buildExprsWith]
  exact hfirst.bind (hrest.bind (.pure _ _))

theorem GoesTo.consNode (hfirst : GoesTo (d.buildWith calls) b e middle)
    (hrest : GoesTo (buildNodesWith calls program) middle nodes after) :
    GoesTo (buildNodesWith calls (.expr d :: program)) b (.expr e :: nodes) after := by
  rw [buildNodesWith]
  exact hfirst.bind (hrest.bind (.pure _ _))

theorem GoesTo.consTry (hblock : GoesTo (buildNodesWith calls block) b blockNodes middle)
    (hhandler : GoesTo (buildNodesWith calls handler) middle handlerNodes behind)
    (hrest : GoesTo (buildNodesWith calls program) behind nodes after) :
    GoesTo (buildNodesWith calls (.tryCatch block handler :: program)) b
      (.tryCatch blockNodes handlerNodes :: nodes) after := by
  rw [buildNodesWith]
  exact hblock.bind (hhandler.bind (hrest.bind (.pure _ _)))

end Runs

/-! ### What has been built -/

/-- The ids of the calls are those that the builder gave out. -/
def GivenOut (b : Builder) (count : Nat) (calls : List Call) : Prop :=
  (calls.map fun call => call.id.toNat).Perm (List.range' b.nextId.toNat count)

/-- A draft as it has been built, with and without a check of the sums. -/
structure Draft.Built (d : Draft) (b : Builder) (e : Expr) (after : Builder) : Prop where
  plain : GoesTo (d.buildWith Builder.plain) b e after
  checked : GoesTo (d.buildWith Builder.checked) b e after
  moved : b.MovedTo d.width d.callCount after
  ids : GivenOut b d.callCount e.calls
  lies : d.LiesAt b.offset.toNat e.span
  groups : List.Forall₂ DraftGroup.Fits d.groups e.groups

/-- Drafts as they have been built one after the other. -/
structure DraftsBuilt (ds : List Draft) (b : Builder) (es : List Expr) (after : Builder) :
    Prop where
  plain : GoesTo (buildExprsWith Builder.plain ds) b es after
  checked : GoesTo (buildExprsWith Builder.checked ds) b es after
  moved : b.MovedTo (widthOfDrafts ds) (callCountOfDrafts ds) after
  ids : GivenOut b (callCountOfDrafts ds) (callsOfExprs es)
  lie : PartsLieAt ds b.offset.toNat (es.map Expr.span)
  groups : List.Forall₂ DraftGroup.Fits (groupsOfDrafts ds) (groupsOfExprs es)

/-- Where the spans of statements lie that are built one after the other from an offset on. -/
def NodesLieAt (program : List DraftNode) (offset : Nat) (nodes : List Node) : Prop :=
  ∀ (i : Nat) (d : Draft), program[i]? = some (.expr d) →
    ∃ e, nodes[i]? = some (.expr e) ∧ d.LiesAt (offset + widthOfNodes (program.take i)) e.span

/-- Statements as they have been built one after the other. -/
structure NodesBuilt (program : List DraftNode) (b : Builder) (nodes : List Node)
    (after : Builder) : Prop where
  plain : GoesTo (buildNodesWith Builder.plain program) b nodes after
  checked : GoesTo (buildNodesWith Builder.checked program) b nodes after
  moved : b.MovedTo (widthOfNodes program) (callCountOfNodes program) after
  ids : GivenOut b (callCountOfNodes program) (callsOfNodes nodes)
  lie : NodesLieAt program b.offset.toNat nodes
  groups : List.Forall₂ DraftGroup.Fits (draftGroupsOfNodes program) (groupsOfNodes nodes)

section Steps

variable {b middle after : Builder} {places ids : Nat}

theorem Builder.MovedTo.refl (b : Builder) : b.MovedTo 0 0 b := ⟨rfl, rfl⟩

theorem Builder.MovedTo.trans {morePlaces moreIds : Nat} (h : b.MovedTo places ids middle)
    (h' : middle.MovedTo morePlaces moreIds after) :
    b.MovedTo (places + morePlaces) (ids + moreIds) after := by
  obtain ⟨hoffset, hid⟩ := h
  obtain ⟨hoffset', hid'⟩ := h'
  exact ⟨by omega, by omega⟩

theorem givenOut_nil (b : Builder) : GivenOut b 0 [] := .nil

theorem GivenOut.append {count more : Nat} {calls others : List Call}
    (h : GivenOut b count calls) (hmoved : b.MovedTo places count middle)
    (h' : GivenOut middle more others) : GivenOut b (count + more) (calls ++ others) := by
  unfold GivenOut at h h' ⊢
  rw [hmoved.nextId] at h'
  rw [List.map_append, ← List.range'_append_1]
  exact h.append h'

theorem GivenOut.cons {count : Nat} {calls : List Call} {call : Call}
    (h : GivenOut b count calls) (hid : call.id.toNat = b.nextId.toNat + count) :
    GivenOut b (count + 1) (call :: calls) := by
  unfold GivenOut at h ⊢
  rw [List.map_cons, hid, List.range'_1_concat]
  exact (List.perm_append_singleton _ _).symm.trans (h.append_right _)

theorem Draft.exists_built_of_span {d : Draft} {length : Nat} (leaf : Span → Expr)
    (hplain : d.buildWith Builder.plain = do return leaf (← Builder.span length))
    (hchecked : d.buildWith Builder.checked = do return leaf (← Builder.span? length))
    (hwidth : d.width = length + 1) (hcount : d.callCount = 0) (hinset : d.inset = 0)
    (hleft : d.leftReach = 0) (hright : d.rightReach = 0) (hgroups : d.groups = [])
    (hleaf : ∀ s, (leaf s).span = s ∧ (leaf s).calls = [] ∧ (leaf s).groups = [])
    (h : b.offset.toNat + d.width < UInt32.size) : ∃ e after, d.Built b e after := by
  rw [hwidth] at h
  obtain ⟨s, after, hspan, hspan?, hstart, hstop, hmoved⟩ := Builder.exists_span h
  obtain ⟨hleafSpan, hleafCalls, hleafGroups⟩ := hleaf s
  refine ⟨leaf s, after, ?_, ?_, ?_, ?_, ⟨?_, ?_⟩, ?_⟩
  · rw [hplain]
    exact GoesTo.bind hspan (.pure _ _)
  · rw [hchecked]
    exact GoesTo.bind hspan? (.pure _ _)
  · rw [hwidth, hcount]
    exact hmoved
  · rw [hcount, hleafCalls]
    exact givenOut_nil b
  · rw [hleafSpan, hinset, hleft, hstart]
    rfl
  · rw [hleafSpan, hwidth, hright, hstop]
    omega
  · rw [hgroups, hleafGroups]
    exact .nil

theorem NodesBuilt.exists_function {body : List DraftNode} {nodes : List Node}
    (hbody : NodesBuilt body b nodes middle) (params : List String)
    (h : b.offset.toNat + (Draft.function params body).width < UInt32.size) :
    ∃ e after, (Draft.function params body).Built b e after := by
  rw [Draft.width] at h
  have hoffset := hbody.moved.offset
  have hroom : middle.offset.toNat + (8 + 1) < UInt32.size := by omega
  obtain ⟨s, after, hspan, hspan?, hstart, hstop, hmoved⟩ := Builder.exists_span hroom
  refine ⟨.function s params nodes, after, ?_, ?_, ?_, ?_, ⟨?_, ?_⟩, ?_⟩
  · rw [Draft.buildWith]
    exact hbody.plain.bind (GoesTo.bind hspan (.pure _ _))
  · rw [Draft.buildWith]
    exact hbody.checked.bind (GoesTo.bind hspan? (.pure _ _))
  · rw [Draft.width, Draft.callCount]
    exact hbody.moved.trans hmoved
  · rw [Draft.callCount, Expr.calls]
    exact hbody.ids
  · rw [Draft.inset, Draft.leftReach, Expr.span, hstart]
    exact hoffset
  · rw [Draft.width, Draft.rightReach, Expr.span, hstop]
    · omega
    · simp
  · rw [Draft.groups, Expr.groups]
    exact hbody.groups

theorem DraftsBuilt.exists_array {elements : List Draft} {es : List Expr}
    (helements : DraftsBuilt elements b es middle)
    (h : b.offset.toNat + (Draft.array elements).width < UInt32.size) :
    ∃ e after, (Draft.array elements).Built b e after := by
  rw [Draft.width] at h
  have hoffset := helements.moved.offset
  have hstart := helements.lie.start_extent hoffset
  have hstop := helements.lie.stop_extent hoffset
  have hroom : (middle.extent es).stop.toNat + 1 < UInt32.size := by omega
  obtain ⟨after, harray, harray?, hnext, hid⟩ := Builder.exists_array hroom
  refine ⟨.array (middle.extent es) es, after, ?_, ?_, ⟨?_, ?_⟩, ?_, ⟨?_, ?_⟩, ?_⟩
  · rw [Draft.buildWith]
    exact helements.plain.bind harray
  · rw [Draft.buildWith]
    exact helements.checked.bind harray?
  · rw [hnext, hstop, Draft.width]
    omega
  · rw [hid, Draft.callCount]
    exact helements.moved.nextId
  · rw [Draft.callCount, Expr.calls]
    exact helements.ids
  · rw [Draft.inset, Draft.leftReach]
    exact hstart
  · rw [Draft.width, Draft.rightReach]
    · show (middle.extent es).stop.toNat + 1 = _
      omega
    · simp
  · rw [Draft.groups, Expr.groups]
    exact .cons (helements.lie.fits hstart (by simpa using hstop)) helements.groups

theorem DraftsBuilt.exists_call {args : List Draft} {es : List Expr}
    (hargs : DraftsBuilt args b es middle) (callee : String)
    (h : b.offset.toNat + (Draft.call callee args).width < UInt32.size)
    (hids : b.nextId.toNat + (Draft.call callee args).callCount < UInt32.size) :
    ∃ e after, (Draft.call callee args).Built b e after := by
  rw [Draft.width] at h
  rw [Draft.callCount] at hids
  have hoffset := hargs.moved.offset
  have hid := hargs.moved.nextId
  have hstart := hargs.lie.start_extent hoffset
  have hstop := hargs.lie.stop_extent hoffset
  -- the width and the count have room for the call itself behind its arguments
  have hroom : (middle.extent es).stop.toNat + 1 < UInt32.size := by omega
  have hfree : middle.nextId.toNat + 1 < UInt32.size := by omega
  obtain ⟨s, after, hcall, hcall?, hstart', hstop', hnext, hgiven⟩ :=
    Builder.exists_call callee hroom hfree
  refine ⟨.call middle.nextId s callee es, after, ?_, ?_, ⟨?_, ?_⟩, ?_, ⟨?_, ?_⟩, ?_⟩
  · rw [Draft.buildWith]
    exact hargs.plain.bind hcall
  · rw [Draft.buildWith]
    exact hargs.checked.bind hcall?
  · rw [hnext, Draft.width]
    omega
  · rw [hgiven, Draft.callCount]
    omega
  · rw [Draft.callCount, Expr.calls]
    exact hargs.ids.cons hid
  · rw [Draft.inset, Draft.leftReach]
    show s.start.toNat = _
    omega
  · rw [Draft.width, Draft.rightReach]
    show s.stop.toNat + 1 = _
    omega
  · rw [Draft.groups, Expr.groups]
    refine .cons (hargs.lie.fits ?_ ?_) hargs.groups
    · show s.start.toNat = b.offset.toNat + frontInset args - (frontReach args + 1)
      omega
    · show s.stop.toNat + 1 = b.offset.toNat + widthOfDrafts args + endReach args + 1
      omega

theorem DraftsBuilt.nil (b : Builder) : DraftsBuilt [] b [] b where
  plain := rfl
  checked := rfl
  moved := .refl b
  ids := givenOut_nil b
  lie := .nil
  groups := .nil

theorem Draft.Built.cons {d : Draft} {e : Expr} {ds : List Draft} {es : List Expr}
    (hfirst : d.Built b e middle) (hrest : DraftsBuilt ds middle es after) :
    DraftsBuilt (d :: ds) b (e :: es) after where
  plain := hfirst.plain.cons hrest.plain
  checked := hfirst.checked.cons hrest.checked
  moved := by
    rw [widthOfDrafts, callCountOfDrafts]
    exact hfirst.moved.trans hrest.moved
  ids := by
    rw [callCountOfDrafts, callsOfExprs]
    exact hfirst.ids.append hfirst.moved hrest.ids
  lie := by
    have hlie := hrest.lie
    rw [hfirst.moved.offset] at hlie
    exact .cons hfirst.lies hlie
  groups := by
    rw [groupsOfDrafts, groupsOfExprs]
    exact List.rel_append hfirst.groups hrest.groups

theorem NodesLieAt.cons {program : List DraftNode} {nodes : List Node} {offset moved : Nat}
    {first : DraftNode} {built : Node} (hwidth : widthOfNodes [first] = moved)
    (hfirst : ∀ d, first = .expr d → ∃ e, built = .expr e ∧ d.LiesAt offset e.span)
    (hrest : NodesLieAt program (offset + moved) nodes) :
    NodesLieAt (first :: program) offset (built :: nodes) := by
  intro i d hd
  cases i with
  | zero =>
    obtain ⟨e, rfl, hlies⟩ := hfirst d (by simpa using hd)
    exact ⟨e, rfl, hlies⟩
  | succ i =>
    obtain ⟨e, he, hlies⟩ := hrest i d (by simpa using hd)
    refine ⟨e, by simpa using he, ?_⟩
    have hsum : widthOfNodes ((first :: program).take (i + 1)) =
        moved + widthOfNodes (program.take i) := by
      rw [← hwidth, List.take_succ_cons]
      cases first <;> simp only [widthOfNodes, Nat.add_zero]
    rw [hsum, ← Nat.add_assoc]
    exact hlies

theorem NodesBuilt.nil (b : Builder) : NodesBuilt [] b [] b where
  plain := rfl
  checked := rfl
  moved := .refl b
  ids := givenOut_nil b
  lie i d hd := by simp at hd
  groups := .nil

theorem Draft.Built.consNode {d : Draft} {e : Expr} {program : List DraftNode} {nodes : List Node}
    (hfirst : d.Built b e middle) (hrest : NodesBuilt program middle nodes after) :
    NodesBuilt (.expr d :: program) b (.expr e :: nodes) after where
  plain := hfirst.plain.consNode hrest.plain
  checked := hfirst.checked.consNode hrest.checked
  moved := by
    rw [widthOfNodes, callCountOfNodes]
    exact hfirst.moved.trans hrest.moved
  ids := by
    rw [callCountOfNodes, callsOfNodes]
    exact hfirst.ids.append hfirst.moved hrest.ids
  lie := by
    have hlie := hrest.lie
    rw [hfirst.moved.offset] at hlie
    refine .cons (by simp only [widthOfNodes, Nat.add_zero]) (fun other hother => ?_) hlie
    obtain rfl : d = other := by simpa using hother
    exact ⟨e, rfl, hfirst.lies⟩
  groups := by
    rw [draftGroupsOfNodes, groupsOfNodes]
    exact List.rel_append hfirst.groups hrest.groups

theorem NodesBuilt.consTry {block handler program : List DraftNode}
    {blockNodes handlerNodes nodes : List Node} {behind : Builder}
    (hblock : NodesBuilt block b blockNodes middle)
    (hhandler : NodesBuilt handler middle handlerNodes behind)
    (hrest : NodesBuilt program behind nodes after) :
    NodesBuilt (.tryCatch block handler :: program) b
      (.tryCatch blockNodes handlerNodes :: nodes) after where
  plain := hblock.plain.consTry hhandler.plain hrest.plain
  checked := hblock.checked.consTry hhandler.checked hrest.checked
  moved := by
    rw [widthOfNodes, callCountOfNodes]
    exact (hblock.moved.trans hhandler.moved).trans hrest.moved
  ids := by
    rw [callCountOfNodes, callsOfNodes]
    exact (hblock.ids.append hblock.moved hhandler.ids).append
      (hblock.moved.trans hhandler.moved) hrest.ids
  lie := by
    have hlie := hrest.lie
    rw [(hblock.moved.trans hhandler.moved).offset] at hlie
    exact .cons (by simp only [widthOfNodes, Nat.add_zero]) (by simp) hlie
  groups := by
    rw [draftGroupsOfNodes, groupsOfNodes]
    exact List.rel_append (List.rel_append hblock.groups hhandler.groups) hrest.groups

end Steps

/-! ### Every draft is built -/

mutual

theorem Draft.exists_built (d : Draft) (b : Builder)
    (hwidth : b.offset.toNat + d.width < UInt32.size)
    (hids : b.nextId.toNat + d.callCount < UInt32.size) : ∃ e after, d.Built b e after := by
  match d with
  | .str value =>
    exact Draft.exists_built_of_span (.str · value) rfl rfl rfl rfl rfl rfl rfl rfl
      (fun _ => ⟨rfl, rfl, rfl⟩) hwidth
  | .ident name =>
    exact Draft.exists_built_of_span (.ident · name) rfl rfl rfl rfl rfl rfl rfl rfl
      (fun _ => ⟨rfl, rfl, rfl⟩) hwidth
  | .object =>
    exact Draft.exists_built_of_span .object rfl rfl rfl rfl rfl rfl rfl rfl
      (fun _ => ⟨rfl, rfl, rfl⟩) hwidth
  | .function params body =>
    have hwidth' := hwidth
    rw [Draft.width] at hwidth'
    rw [Draft.callCount] at hids
    obtain ⟨nodes, middle, hbody⟩ := exists_nodesBuilt body b (by omega) hids
    exact hbody.exists_function params hwidth
  | .array elements =>
    have hwidth' := hwidth
    rw [Draft.width] at hwidth'
    rw [Draft.callCount] at hids
    obtain ⟨es, middle, helements⟩ := exists_draftsBuilt elements b (by omega) hids
    exact helements.exists_array hwidth
  | .call callee args =>
    have hwidth' := hwidth
    have hids' := hids
    rw [Draft.width] at hwidth'
    rw [Draft.callCount] at hids'
    obtain ⟨es, middle, hargs⟩ := exists_draftsBuilt args b (by omega) (by omega)
    exact hargs.exists_call callee hwidth hids
termination_by sizeOf d

theorem exists_draftsBuilt (ds : List Draft) (b : Builder)
    (hwidth : b.offset.toNat + widthOfDrafts ds < UInt32.size)
    (hids : b.nextId.toNat + callCountOfDrafts ds < UInt32.size) :
    ∃ es after, DraftsBuilt ds b es after := by
  match ds with
  | [] => exact ⟨[], b, .nil b⟩
  | d :: rest =>
    rw [widthOfDrafts] at hwidth
    rw [callCountOfDrafts] at hids
    obtain ⟨e, middle, hfirst⟩ := d.exists_built b (by omega) (by omega)
    have hoffset := hfirst.moved.offset
    have hnext := hfirst.moved.nextId
    obtain ⟨es, after, hrest⟩ := exists_draftsBuilt rest middle (by omega) (by omega)
    exact ⟨e :: es, after, hfirst.cons hrest⟩
termination_by sizeOf ds

theorem exists_nodesBuilt (program : List DraftNode) (b : Builder)
    (hwidth : b.offset.toNat + widthOfNodes program < UInt32.size)
    (hids : b.nextId.toNat + callCountOfNodes program < UInt32.size) :
    ∃ nodes after, NodesBuilt program b nodes after := by
  match program with
  | [] => exact ⟨[], b, .nil b⟩
  | .expr d :: rest =>
    rw [widthOfNodes] at hwidth
    rw [callCountOfNodes] at hids
    obtain ⟨e, middle, hfirst⟩ := d.exists_built b (by omega) (by omega)
    have hoffset := hfirst.moved.offset
    have hnext := hfirst.moved.nextId
    obtain ⟨nodes, after, hrest⟩ := exists_nodesBuilt rest middle (by omega) (by omega)
    exact ⟨.expr e :: nodes, after, hfirst.consNode hrest⟩
  | .tryCatch block handler :: rest =>
    rw [widthOfNodes] at hwidth
    rw [callCountOfNodes] at hids
    obtain ⟨blockNodes, middle, hblock⟩ := exists_nodesBuilt block b (by omega) (by omega)
    have hoffset := hblock.moved.offset
    have hnext := hblock.moved.nextId
    obtain ⟨handlerNodes, behind, hhandler⟩ :=
      exists_nodesBuilt handler middle (by omega) (by omega)
    have hoffset' := hhandler.moved.offset
    have hnext' := hhandler.moved.nextId
    obtain ⟨nodes, after, hrest⟩ := exists_nodesBuilt rest behind (by omega) (by omega)
    exact ⟨.tryCatch blockNodes handlerNodes :: nodes, after, hblock.consTry hhandler hrest⟩
termination_by sizeOf program

end

/-! ### Whole programs -/

theorem GivenOut.nodup {b : Builder} {count : Nat} {calls : List Call}
    (h : GivenOut b count calls) : (calls.map Call.id).Nodup := by
  have hids : (calls.map fun call => call.id.toNat).Nodup := h.nodup_iff.mpr List.nodup_range'
  refine List.Nodup.of_map UInt32.toNat ?_
  rw [List.map_map]
  exact hids

theorem widthOfNodes_take_succ {program : List DraftNode} {i : Nat} {d : Draft}
    (hd : program[i]? = some (.expr d)) :
    widthOfNodes (program.take (i + 1)) = widthOfNodes (program.take i) + d.width := by
  induction program generalizing i with
  | nil => simp at hd
  | cons first program ih =>
    cases i with
    | zero =>
      obtain rfl : first = .expr d := by simpa using hd
      simp only [List.take_succ_cons, List.take_zero, widthOfNodes, Nat.add_zero, Nat.zero_add]
    | succ i =>
      have hrest := ih (i := i) (by simpa using hd)
      rw [List.take_succ_cons, List.take_succ_cons]
      cases first <;> simp only [widthOfNodes, hrest, Nat.add_assoc]

/-- Of two expressions built one after the other, the first ends before the second exactly if it is
empty and at the first place, or if the places that the two reach beyond their own, the first to the
right and the second to the left, are no more than those between them. -/
theorem Draft.LiesAt.stop_le_start_iff {d d' : Draft} {offset : Nat} {span span' : Span}
    (h : d.LiesAt offset span) (h' : d'.LiesAt (offset + d.width) span') :
    span.stop ≤ span'.start ↔ d.rightReach + d'.leftReach ≤ d'.inset + 1 ∨ span.stop = 0 := by
  have hstop := h.stop
  have hstart := h'.start
  have hpos := d.width_pos
  have hzero : span.stop = 0 ↔ span.stop.toNat = 0 := UInt32.toNat_inj.symm
  rw [UInt32.le_iff_toNat_le, hzero]
  omega

theorem Draft.LiesAt.stop_le_stop {d d' : Draft} {offset : Nat} {span span' : Span}
    (h : d.LiesAt offset span) (h' : d'.LiesAt (offset + d.width) span') :
    span.stop ≤ span'.stop := by
  have hstop := h.stop
  have hstop' := h'.stop
  have hreach := d.rightReach_le
  have hpos := d'.width_pos
  rw [UInt32.le_iff_toNat_le]
  omega

/-- **Ids and spans.**  A program that a source has room for is built without a sum that is no place.
Its calls have distinct ids.  An array or a call lies around its parts as `DraftGroup.Fits` says, so
not around a part in front of which more calls stand than in front of the first one.  Expressions
that follow each other end in that order, but the second begins behind the first only if the reach
of both, one place for the end of a call and one for every call that the second begins with, leaves
it room: two calls in a row overlap. -/
theorem build_layout (program : List DraftNode)
    (hwidth : widthOfNodes program < UInt32.size)
    (hcalls : callCountOfNodes program < UInt32.size) :
    ∃ nodes after, (buildNodesWith Builder.plain program).run {} = (nodes, after) ∧
      (buildNodesWith Builder.checked program).run {} = some (nodes, after) ∧
      ((callsOfNodes nodes).map Call.id).Nodup ∧
      List.Forall₂ DraftGroup.Fits (draftGroupsOfNodes program) (groupsOfNodes nodes) ∧
      ∀ (i : Nat) (d d' : Draft), program[i]? = some (.expr d) →
        program[i + 1]? = some (.expr d') →
        ∃ e e', nodes[i]? = some (.expr e) ∧ nodes[i + 1]? = some (.expr e') ∧
          e.span.stop ≤ e'.span.stop ∧
          (e.span.stop ≤ e'.span.start ↔
            d.rightReach + d'.leftReach ≤ d'.inset + 1 ∨ e.span.stop = 0) := by
  obtain ⟨nodes, after, hbuilt⟩ := exists_nodesBuilt program {} (by simpa using hwidth)
    (by simpa using hcalls)
  refine ⟨nodes, after, hbuilt.plain, hbuilt.checked, hbuilt.ids.nodup, hbuilt.groups, ?_⟩
  intro i d d' hd hd'
  obtain ⟨e, he, hlies⟩ := hbuilt.lie i d hd
  obtain ⟨e', he', hlies'⟩ := hbuilt.lie (i + 1) d' hd'
  rw [widthOfNodes_take_succ hd, ← Nat.add_assoc] at hlies'
  exact ⟨e, e', he, he', hlies.stop_le_stop hlies', hlies.stop_le_start_iff hlies'⟩

/-- The calls of `f("x"); g("y")` have distinct ids, and each lies around its argument. -/
theorem build_layout_twoCalls :
    ∃ nodes after, (buildNodesWith Builder.checked
        [.expr (.call "f" [.str "x"]), .expr (.call "g" [.str "y"])]).run {} =
          some (nodes, after) ∧
      ((callsOfNodes nodes).map Call.id).Nodup ∧
      List.Forall₂ DraftGroup.Fits [⟨1, [.str "x"]⟩, ⟨1, [.str "y"]⟩] (groupsOfNodes nodes) := by
  obtain ⟨nodes, after, -, hchecked, hids, hgroups, -⟩ :=
    build_layout [.expr (.call "f" [.str "x"]), .expr (.call "g" [.str "y"])]
      (by decide +kernel) (by decide +kernel)
  exact ⟨nodes, after, hchecked, hids, hgroups⟩

/-- The second call of `f("x"); g("y")` begins inside the first one, and the array of
`""; [a(), b(c(d()))]` behind the place where its second element begins. -/
theorem exists_overlapping_build :
    (∃ e e', ((buildNodesWith Builder.plain
        [.expr (.call "f" [.str "x"]), .expr (.call "g" [.str "y"])]).run {}).1 =
          [.expr e, .expr e'] ∧
      ¬ e.span.stop ≤ e'.span.start) ∧
    ∃ text span first second, ((buildNodesWith Builder.plain
        [.expr (.str ""),
          .expr (.array [.call "a" [], .call "b" [.call "c" [.call "d" []]]])]).run {}).1 =
          [.expr text, .expr (.array span [first, second])] ∧
      ¬ span.Contains second.span :=
  ⟨⟨_, _, rfl, by decide +kernel⟩, ⟨_, _, _, _, rfl, by decide +kernel⟩⟩

end AmdBundle
