import AmdBundle.Proofs.Walk.Keeps

/-!
# AmdBundle.Proofs.Walk.Transient — what a walk puts back, and what it only adds to

A walk leaves the two marks of a file as it found them, and of what is recorded it takes nothing
away (`walk_goesOn`).  This holds under every table of plugins for AMD calls and ordinary ones, from
every state, and also for walks that fail, however deep inside blocks, functions and second rounds.
-/

namespace AmdBundle

/-- The later state of a file has the marks of the earlier one, and all that it had recorded. -/
structure FileState.GoesOn (before after : FileState) : Prop where
  inTry : after.inTry = before.inTry
  processing : after.processing = before.processing
  identity : after.identity = before.identity
  dependencies : before.dependencies <+: after.dependencies
  warnings : before.warnings <+: after.warnings
  locals : before.locals.modules <+: after.locals.modules
  isAmd : before.isAmd = true → after.isAmd = true
  loaderInjected : before.loaderInjected = true → after.loaderInjected = true

namespace FileState

variable {state mid after : FileState}

theorem GoesOn.refl (state : FileState) : state.GoesOn state :=
  ⟨rfl, rfl, rfl, List.prefix_rfl, List.prefix_rfl, List.prefix_rfl, id, id⟩

theorem GoesOn.trans (h : state.GoesOn mid) (h' : mid.GoesOn after) : state.GoesOn after where
  inTry := h'.inTry.trans h.inTry
  processing := h'.processing.trans h.processing
  identity := h'.identity.trans h.identity
  dependencies := h.dependencies.trans h'.dependencies
  warnings := h.warnings.trans h'.warnings
  locals := h.locals.trans h'.locals
  isAmd hmarked := h'.isAmd (h.isAmd hmarked)
  loaderInjected hmarked := h'.loaderInjected (h.loaderInjected hmarked)

theorem goesOn_record (state : FileState) (dependency : Dependency) :
    state.GoesOn (state.record dependency) where
  __ := GoesOn.refl state
  dependencies := List.prefix_append _ _

theorem GoesOn.leave (h : state.GoesOn after) (id : UInt32) :
    (state.leave id).GoesOn (after.leave id) :=
  { h with processing := congrArg (List.erase · id) h.processing }

theorem goesOn_leave_mark (loader : String) (id : UInt32) (state : FileState) :
    state.GoesOn ((AmdPlugin.mark loader id state).leave id) := by
  rw [AmdPlugin.leave_mark, Dojo.injectLoader]
  split
  · exact { GoesOn.refl state with isAmd := fun _ => rfl }
  · refine { GoesOn.refl state with dependencies := ?_, isAmd := ?_, loaderInjected := ?_ }
    · exact List.prefix_append _ _
    · exact fun _ => rfl
    · exact fun _ => rfl

end FileState

theorem walkOrder_goesOn : WalkOrder (fun _ => True) FileState.GoesOn where
  refl := FileState.GoesOn.refl
  trans h h' := h.trans h'
  withTry h := { h with inTry := rfl }
  warn state _ := { FileState.GoesOn.refl state with warnings := List.prefix_append _ _ }
  declare state _ := { FileState.GoesOn.refl state with locals := List.prefix_append _ _ }
  item state _ := state.goesOn_record _
  array state _ := state.goesOn_record _
  need _ _ state := state.goesOn_record _

section Walk

variable {loaders : String → Prop} {records : Dependency → Prop} {table : HookTable}

/-- A `define` call is offered in at most two rounds, and each of them goes on from what was there.
-/
theorem goesOn_callDefine
    (hplugins : ∀ plugin ∈ table.plugins, IsWalkPlugin loaders (fun _ => True) records plugin) :
    Offer.KeepsTo (fun _ => True) FileState.GoesOn table.callDefine := by
  intro call walk hcall hwalk
  have order := walkOrder_goesOn
  have hrecords : ∀ dependency, records dependency → ∀ state : FileState,
      state.GoesOn (state.record dependency) := fun dependency _ state => state.goesOn_record _
  have hround : ∀ again : WalkM Verdict, again.Keeps FileState.GoesOn →
      (HookTable.ask (AmdPlugin.defineHook table call walk again) table.plugins).Keeps
        FileState.GoesOn := by
    intro again hagain
    refine order.ask fun plugin hplugin =>
      order.callDefineHook hrecords hcall (hplugins plugin hplugin) hwalk (fun _ => ?_)
        fun loader _ => ?_
    · exact order.callDefine (order.hostKeeps hrecords hcall hplugins hwalk again)
        fun dependency state => state.goesOn_record _
    · refine keeps_interceptor order.refl fun state _ => ?_
      exact (FileState.goesOn_leave_mark loader call.id state).trans ((hagain _).leave call.id)
  exact hround _ (hround _ (order.pure Verdict.pass))

/-- **Transience.**  A walk under a table of plugins for AMD calls and ordinary ones, from any state
and over any statements, puts back the marks of the file and only adds to what is recorded, whether
it succeeds or fails. -/
theorem walk_goesOn (table : HookTable)
    (hplugins : ∀ plugin ∈ table.plugins,
      IsWalkPlugin (fun _ => True) (fun _ => True) (fun _ => True) plugin)
    (state : FileState) (nodes : List Node) :
    state.GoesOn (FileState.walk table nodes state).2 := by
  have order := walkOrder_goesOn
  refine keeps_walkNodes order (order.offer (fun dependency _ state => ?_) hplugins
    (goesOn_callDefine hplugins)) nodes (fun _ _ => trivial) state
  exact state.goesOn_record dependency

/-- A table with a plugin that warns of `define` calls and fails, after the interceptor. -/
def faultyTable : HookTable where
  plugins := [Dojo.interceptor "loader",
    .ofScripts "faulty" .normal (.warn "broken" (.refuse "broken")) .pass .pass .pass, Amd.handler]

def guardedDefine : List Node := [.tryCatch [.expr <| .call 3 {} "define" [.object {}]] []]

/-- The walk fails in the second round, inside the block and the mark. -/
theorem walk_goesOn_guardedDefine :
    (∀ plugin ∈ faultyTable.plugins,
      IsWalkPlugin (fun _ => True) (fun _ => True) (fun _ => True) plugin) ∧
    FileState.walk faultyTable guardedDefine { processing := [2] } =
      (.error ⟨"faulty", "call_define", "broken"⟩,
        { processing := [2], isAmd := true, loaderInjected := true,
          dependencies := [.require "loader"], warnings := ["broken"] }) ∧
    FileState.GoesOn { processing := [2] }
      (FileState.walk faultyTable guardedDefine { processing := [2] }).2 := by
  have hplugins : ∀ plugin ∈ faultyTable.plugins,
      IsWalkPlugin (fun _ => True) (fun _ => True) (fun _ => True) plugin := by
    intro plugin hplugin
    simp only [faultyTable, List.mem_cons, List.not_mem_nil, or_false] at hplugin
    rcases hplugin with rfl | rfl | rfl
    · exact .interceptor trivial
    · exact .ordinary (Script.isOrdinary_ofScripts _ _ trivial trivial trivial trivial)
    · exact .handler
  refine ⟨hplugins, ?_, walk_goesOn faultyTable hplugins _ _⟩
  show (HookTable.walkNodes _ [_]).runFrom _ = _
  rw [HookTable.walkNodes, HookTable.walkNodes, HookTable.walkNodes, HookTable.walkExpr]
  rfl

end Walk

end AmdBundle
