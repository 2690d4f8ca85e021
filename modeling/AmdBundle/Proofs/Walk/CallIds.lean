import AmdBundle.Proofs.Program.CallIds
import AmdBundle.Proofs.Walk.AmdTable
import AmdBundle.Proofs.Walk.Marks
import AmdBundle.Proofs.Walk.Visited

/-!
# AmdBundle.Proofs.Walk.CallIds — what a walk records does not hang on the ids of calls

Interceptors tell the calls of a file apart by their ids, and pass on a call inside another one of
the same id.  Nothing that is recorded shows it: walks under a table of AMD plugins over two
programs that differ in nothing but the ids of their calls end in one state
(`walk_eq_of_eraseIds_eq`).

A program is walked beside the one that has lost its ids.  In the latter every call inside a marked
one counts as marked, so the two runs come to a call with other marks (`WalkM.Alike`).
-/

namespace AmdBundle

open WalkM

namespace Amd

variable {guarded : Bool} {call : Call} {host : CallHost call} {erased : CallHost call.eraseIds}

/-- Two hosts, of a call and of the one that has lost its ids, that give like answers. -/
structure HostAlike (guarded : Bool) (host : CallHost call) (erased : CallHost call.eraseIds) :
    Prop where
  walk : ∀ e h h', Alike guarded (host.walk e h) (erased.walk e.eraseIds h')
  askArray : ∀ param slots named, Alike guarded (host.askArray param slots named)
    (erased.askArray param.eraseIds slots named)
  askItem : ∀ param named, Alike guarded (host.askItem param named)
    (erased.askItem param.eraseIds named)
  defineKind : host.defineKind = erased.defineKind

/-! ### The steps of the handler -/

theorem alike_warnAt (what : String) (place : UInt32) (problem : String) :
    Alike guarded (warnAt what place problem) (warnAt what place problem) :=
  Alike.of_blind fun _ => ⟨_, _, rfl, fun _ => rfl, rfl, rfl⟩

theorem alike_declare (name : Option String) : Alike guarded (declare name) (declare name) := by
  cases name with
  | none => exact Alike.pure none
  | some name => exact Alike.of_blind fun _ => ⟨_, _, rfl, fun _ => rfl, rfl, rfl⟩

theorem alike_claimArray (render : ModuleIdentity → Render) (param : Expr) (slots : Slots)
    (named : Option String) :
    Alike guarded (claimArray render param slots named)
      (claimArray render param.eraseIds slots named) := by
  rw [claimArray, claimArray, Expr.evaluate_eraseIds, Expr.span_eraseIds]
  cases param.evaluate with
  | constArray ids => exact Alike.of_blind fun _ => ⟨_, _, rfl, fun _ => rfl, rfl, rfl⟩
  | string value => exact Alike.pure _
  | dynamic => exact Alike.pure _

theorem alike_claimItem (render : ModuleIdentity → Render) (param : Expr)
    (named : Option String) :
    Alike guarded (claimItem render param named) (claimItem render param.eraseIds named) := by
  rw [claimItem, claimItem, Expr.evaluate_eraseIds, Expr.span_eraseIds]
  cases param.evaluate with
  | string id => exact Alike.of_blind fun _ => ⟨_, _, rfl, fun _ => rfl, rfl, rfl⟩
  | constArray ids => exact Alike.pure _
  | dynamic => exact Alike.pure _

/-- A list that is claimed in both runs or in neither, and what is done with it in the latter case.
-/
theorem alike_unclaimed {ask ask' : WalkM (Verdict × Slots)} {step step' : WalkM Unit}
    (hask : Alike guarded ask ask') (hstep : Alike guarded step step') :
    Alike guarded
      (ask >>= fun answer =>
        match answer with
        | (.claim, slots) => pure slots
        | (.pass, slots) => step >>= fun _ => pure slots)
      (ask' >>= fun answer =>
        match answer with
        | (.claim, slots) => pure slots
        | (.pass, slots) => step' >>= fun _ => pure slots) := by
  refine hask.bind fun answer => ?_
  obtain ⟨verdict, slots⟩ := answer
  cases verdict with
  | claim => exact Alike.pure slots
  | pass => exact hstep.bind fun _ => Alike.pure slots

/-! ### What the handler does with a call -/

section Handler

variable (hosts : HostAlike guarded host erased)

include hosts

theorem alike_walkArgument (arg : Argument call.args) :
    Alike guarded (walkArgument host arg) (walkArgument erased (Argument.eraseIds arg)) :=
  hosts.walk arg.1 _ _

theorem alike_processElement (named : Option String) (element : Expr)
    (h : sizeOf element < sizeOf call.args)
    (h' : sizeOf element.eraseIds < sizeOf call.eraseIds.args) :
    Alike guarded (processElement host named element h)
      (processElement erased named element.eraseIds h') := by
  rw [processElement, processElement, Expr.span_eraseIds]
  refine (hosts.askItem element named).bind fun verdict => ?_
  cases verdict with
  | claim => exact Alike.pure ()
  | pass => exact (alike_warnAt _ _ _).bind fun _ => hosts.walk element h h'

theorem alike_forM_processElement (named : Option String) {elements : List Expr}
    (h : ∀ e ∈ elements, sizeOf e < sizeOf call.args)
    (h' : ∀ e ∈ elements.map Expr.eraseIds, sizeOf e < sizeOf call.eraseIds.args) :
    Alike guarded
      (elements.attach.forM fun element => processElement host named element.1 (h _ element.2))
      ((elements.map Expr.eraseIds).attach.forM fun element =>
        processElement erased named element.1 (h' _ element.2)) := by
  rw [List.attach_map]
  exact Alike.forM_map fun element _ => alike_processElement hosts named element.1 _ _

theorem alike_processArray (list : Argument call.args) (slots : Slots) (named : Option String) :
    Alike guarded (processArray host list slots named)
      (processArray erased (Argument.eraseIds list) slots named) := by
  have hask := hosts.askArray list.1 slots named
  cases hlist : list.1 with
  | array span elements =>
    have herased : (Argument.eraseIds list).1 = .array span (elements.map Expr.eraseIds) := by
      rw [Argument.val_eraseIds, hlist, Expr.eraseIds_array]
    rw [processArray_of_array hlist, processArray_of_array herased]
    exact alike_unclaimed hask (alike_forM_processElement hosts named
      (fun e he => sizeOf_lt_of_mem_elements list.2 hlist he)
      (fun e he => sizeOf_lt_of_mem_elements (Argument.eraseIds list).2 herased he))
  | _ =>
    have hnot : list.1.isArray = false := by rw [hlist]; rfl
    have herased : (Argument.eraseIds list).1.isArray = false := by
      rw [Argument.val_eraseIds, Expr.isArray_eraseIds, hnot]
    rw [processArray_of_not_array hnot, processArray_of_not_array herased, Argument.val_eraseIds,
      Expr.span_eraseIds]
    exact alike_unclaimed hask (alike_warnAt _ _ _)

section Define

variable (args : DefineArgs call.args)

theorem alike_processList :
    Alike guarded (processList host args) (processList erased args.eraseIds) := by
  obtain ⟨name, array, body⟩ := args
  cases array with
  | none => exact Alike.pure []
  | some list =>
    show Alike guarded (processArray host list (emptySlots list.1) name)
      (processArray erased (Argument.eraseIds list) (emptySlots (Argument.eraseIds list).1) name)
    rw [Argument.val_eraseIds, emptySlots_eraseIds]
    exact alike_processArray hosts list _ name

theorem alike_walkBody : Alike guarded (walkBody host args) (walkBody erased args.eraseIds) := by
  obtain ⟨name, array, body⟩ := args
  cases body with
  | none => exact Alike.pure ()
  | some body => exact alike_walkArgument hosts body

theorem alike_handleDefine :
    Alike guarded (handleDefine host args) (handleDefine erased args.eraseIds) := by
  rw [handleDefine_eq, handleDefine_eq]
  refine (alike_declare args.name).bind fun localModule => ?_
  refine (alike_processList hosts args).bind fun slots => ?_
  refine (alike_walkBody hosts args).bind fun _ => ?_
  rw [defineDependency_eraseIds, hosts.defineKind]
  exact Alike.record _

end Define

theorem alike_handleRequire (list : Argument call.args) (callbacks : List (Argument call.args)) :
    Alike guarded (handleRequire host list callbacks)
      (handleRequire erased (Argument.eraseIds list) (callbacks.map Argument.eraseIds)) := by
  rw [handleRequire, handleRequire, WalkM.discard_eq, WalkM.discard_eq, Argument.val_eraseIds,
    emptySlots_eraseIds]
  refine Alike.bind ?_ fun _ => Alike.forM_map fun arg _ => alike_walkArgument hosts arg
  exact (alike_processArray hosts list _ none).bind fun _ => Alike.pure ()

theorem alike_callDefine :
    Alike guarded (callDefine call host) (callDefine call.eraseIds erased) := by
  have herased := DefineArgs.ofArgs?_eraseIds call
  cases hargs : DefineArgs.ofArgs? call.args with
  | none =>
    rw [hargs] at herased
    rw [callDefine_of_none hargs, callDefine_of_none herased]
    exact Alike.pure _
  | some args =>
    rw [hargs] at herased
    rw [callDefine_of_some hargs, callDefine_of_some herased]
    exact (alike_handleDefine hosts args).bind fun _ => Alike.pure _

theorem alike_callRequire :
    Alike guarded (callRequire call host) (callRequire call.eraseIds erased) := by
  have herased := RequireArgs.ofArgs?_eraseIds call
  cases hargs : RequireArgs.ofArgs? call.args with
  | none =>
    rw [hargs] at herased
    rw [callRequire_of_none hargs, callRequire_of_none herased]
    exact Alike.pure _
  | some args =>
    rw [hargs] at herased
    cases args with
    | now id =>
      rw [callRequire_of_now hargs, callRequire_of_now herased]
      exact (Alike.record _).bind fun _ => Alike.pure _
    | list list callbacks =>
      rw [callRequire_of_list hargs, callRequire_of_list herased]
      exact (alike_handleRequire hosts list callbacks).bind fun _ => Alike.pure _

end Handler

end Amd

namespace AmdPlugin

open Amd HookTable

/-! ### Offers of calls -/

section Offer

variable {parts : List AmdPlugin} {kind : DefineKind} {guarded : Bool} {call : Call}
  {walk : Walker call} {erasedWalk : Walker call.eraseIds}

theorem hostAlike_table
    (hwalk : ∀ e h h', Alike guarded (walk e h) (erasedWalk e.eraseIds h')) :
    HostAlike guarded ((table parts kind).host call walk (pure .pass))
      ((table parts kind).host call.eraseIds erasedWalk (pure .pass)) where
  walk := hwalk
  askArray param slots named := by
    show Alike guarded ((table parts kind).amdArray call walk param slots named)
      ((table parts kind).amdArray call.eraseIds erasedWalk param.eraseIds slots named)
    rw [amdArray, amdArray, plugins_table, askWithSlots_map, askWithSlots_map]
    cases (ordered parts).findSome? render? with
    | none => exact Alike.pure _
    | some render => exact alike_claimArray render param slots named
  askItem param named := by
    show Alike guarded ((table parts kind).amdItem call walk param named)
      ((table parts kind).amdItem call.eraseIds erasedWalk param.eraseIds named)
    rw [amdItem, amdItem, plugins_table, ask_amdItem_map, ask_amdItem_map]
    cases (ordered parts).findSome? render? with
    | none => exact Alike.pure _
    | some render => exact alike_claimItem render param named
  defineKind := rfl

/-- The file with what an interceptor notes in it. -/
def note (loader : String) (state : FileState) : FileState :=
  { Dojo.injectLoader loader state with isAmd := true }

theorem note_eq_self {loader : String} {state : FileState} (hisAmd : state.isAmd = true)
    (hinjected : state.loaderInjected = true) : note loader state = state := by
  rw [note, Dojo.injectLoader, if_pos hinjected, ← hisAmd]

theorem noted_note (loader : String) (state : FileState) (marks others : List UInt32) :
    Noted guarded marks others (note loader state) :=
  fun _ _ => ⟨rfl, loaderInjected_injectLoader loader state⟩

theorem mark_withMarks (loader : String) (id : UInt32) (state : FileState) (marks : List UInt32) :
    mark loader id (state.withMarks marks) = (note loader state).withMarks (id :: marks) := by
  unfold mark note Dojo.injectLoader FileState.withMarks
  cases hinjected : state.loaderInjected <;> simp [FileState.record, hinjected]

theorem leave_withMarks (id : UInt32) (state : FileState) (marks : List UInt32) :
    (state.withMarks (id :: marks)).leave id = state.withMarks marks := by
  simp [FileState.leave, FileState.withMarks]

/-- A table with an interceptor does with a `define` call what is done with it once it is marked and
the file noted, whether it is the interceptor that sees to both or an outer call did. -/
theorem runFrom_callDefine_withMarks {loader : String} {state after : FileState}
    {marks : List UInt32} {verdict : Verdict} (hloader : parts.findSome? loader? = some loader)
    (hnoted : marks ≠ [] → state.isAmd = true ∧ state.loaderInjected = true)
    (hrun : (answered parts (table parts kind) call walk).runFrom
        ((note loader state).withMarks (marks.insert call.id)) =
      (.ok verdict, after.withMarks (marks.insert call.id))) :
    ((table parts kind).callDefine call walk).runFrom (state.withMarks marks) =
      (.ok verdict, after.withMarks marks) := by
  rw [runFrom_callDefine, hloader]
  show (if marks.contains call.id then _ else _) = _
  by_cases hmem : call.id ∈ marks
  · -- an outer call of this id has seen to what the interceptor would add
    obtain ⟨hisAmd, hinjected⟩ := hnoted (List.ne_nil_of_mem hmem)
    rw [List.insert_of_mem hmem, note_eq_self hisAmd hinjected] at hrun
    rw [if_pos (List.contains_iff_mem.mpr hmem), hrun]
  · rw [List.insert_of_not_mem hmem, ← mark_withMarks] at hrun
    rw [if_neg (by simpa using hmem), hrun, leave_withMarks]

/-- An offer of a `define` call, from what becomes of it once it is marked.  Each of the two runs
has the call marked then, be it by an interceptor or because it stands inside a call of the same
id. -/
theorem alike_callDefine_table
    (h : Alike (parts.findSome? loader?).isSome (answered parts (table parts kind) call walk)
      (answered parts (table parts kind) call.eraseIds erasedWalk)) :
    Alike (parts.findSome? loader?).isSome ((table parts kind).callDefine call walk)
      ((table parts kind).callDefine call.eraseIds erasedWalk) := by
  intro state marks others hnoted
  cases hloader : parts.findSome? loader? with
  | none =>
    obtain ⟨verdict, after, hrun, herased, hafter⟩ := h state marks others hnoted
    refine ⟨verdict, after, ?_, ?_, hloader ▸ hafter⟩
    · rw [runFrom_callDefine, hloader, hrun]
    · rw [runFrom_callDefine, hloader, herased]
  | some loader =>
    have hguarded : (parts.findSome? loader?).isSome = true := by rw [hloader]; rfl
    obtain ⟨verdict, after, hrun, herased, hafter⟩ :=
      h (note loader state) (marks.insert call.id) (others.insert call.eraseIds.id)
        (noted_note loader state _ _)
    refine ⟨verdict, after, ?_, ?_, fun _ _ => hafter hguarded (.inl ?_)⟩
    · exact runFrom_callDefine_withMarks hloader (fun hne => hnoted hguarded (.inl hne)) hrun
    · exact runFrom_callDefine_withMarks hloader (fun hne => hnoted hguarded (.inr hne)) herased
    · exact List.ne_nil_of_mem List.mem_insert_self

theorem alike_offer
    (hwalk : ∀ e h h', Alike (parts.findSome? loader?).isSome (walk e h)
      (erasedWalk e.eraseIds h')) :
    Alike (parts.findSome? loader?).isSome ((table parts kind).offer call walk)
      ((table parts kind).offer call.eraseIds erasedWalk) := by
  have hosts : HostAlike (parts.findSome? loader?).isSome
      ((table parts kind).host call walk (pure .pass))
      ((table parts kind).host call.eraseIds erasedWalk (pure .pass)) := hostAlike_table hwalk
  have hdefine : Alike (parts.findSome? loader?).isSome
      (answered parts (table parts kind) call walk)
      (answered parts (table parts kind) call.eraseIds erasedWalk) := by
    rw [answered, answered]
    split
    · exact alike_callDefine hosts
    · exact Alike.pure _
  have hrequire : Alike (parts.findSome? loader?).isSome ((table parts kind).callRequire call walk)
      ((table parts kind).callRequire call.eraseIds erasedWalk) := by
    rw [callRequire_eq, callRequire_eq]
    split
    · exact alike_callRequire hosts
    · exact Alike.pure _
  rw [offer, offer]
  show Alike _ _ (if call.callee = "define" then _ else if call.callee = "require" then _ else _)
  split
  · exact alike_callDefine_table hdefine
  · split
    · exact hrequire
    · exact Alike.pure _

end Offer

/-! ### Walks -/

section Walk

variable {parts : List AmdPlugin} {kind : DefineKind}

mutual

theorem alike_walkNodes (nodes : List Node) :
    Alike (parts.findSome? loader?).isSome ((table parts kind).walkNodes nodes)
      ((table parts kind).walkNodes (eraseIdsOfNodes nodes)) := by
  match nodes with
  | [] =>
    rw [eraseIdsOfNodes, walkNodes]
    exact Alike.pure ()
  | .expr e :: rest =>
    rw [eraseIdsOfNodes, walkNodes, walkNodes]
    exact (alike_walkExpr e).bind fun _ => alike_walkNodes rest
  | .tryCatch block onError :: rest =>
    rw [eraseIdsOfNodes, walkNodes, walkNodes]
    exact ((alike_walkNodes block).withTry true).bind fun _ =>
      (alike_walkNodes onError).bind fun _ => alike_walkNodes rest
termination_by sizeOf nodes

theorem alike_walkExpr (e : Expr) :
    Alike (parts.findSome? loader?).isSome ((table parts kind).walkExpr e)
      ((table parts kind).walkExpr e.eraseIds) := by
  match e with
  | .call id span callee args =>
    have hwalk : ∀ e, sizeOf e < sizeOf args → Alike (parts.findSome? loader?).isSome
        ((table parts kind).walkExpr e) ((table parts kind).walkExpr e.eraseIds) :=
      fun e h => alike_walkExpr e
    have hargs := alike_walkExprs args
    rw [eraseIdsOfExprs_eq] at hargs
    rw [Expr.eraseIds, eraseIdsOfExprs_eq, walkExpr, walkExpr]
    have hoffer : Alike (parts.findSome? loader?).isSome
        ((table parts kind).offer ⟨id, span, callee, args⟩ fun e _ => (table parts kind).walkExpr e)
        ((table parts kind).offer (Call.eraseIds ⟨id, span, callee, args⟩) fun e _ =>
          (table parts kind).walkExpr e) :=
      alike_offer fun e h _ => hwalk e h
    refine hoffer.bind fun verdict => ?_
    cases verdict with
    | claim => exact Alike.pure ()
    | pass => exact hargs
  | .function span params body =>
    rw [Expr.eraseIds, walkExpr, walkExpr]
    exact (alike_walkNodes body).withTry false
  | .array span elements =>
    rw [Expr.eraseIds, walkExpr, walkExpr]
    exact alike_walkExprs elements
  | .str .. | .object .. | .ident .. | .other .. =>
    rw [Expr.eraseIds, walkExpr_of_isAtom rfl]
    exact Alike.pure ()
termination_by sizeOf e

theorem alike_walkExprs (es : List Expr) :
    Alike (parts.findSome? loader?).isSome ((table parts kind).walkExprs es)
      ((table parts kind).walkExprs (eraseIdsOfExprs es)) := by
  match es with
  | [] =>
    rw [eraseIdsOfExprs, walkExprs]
    exact Alike.pure ()
  | e :: rest =>
    rw [eraseIdsOfExprs, walkExprs, walkExprs]
    exact (alike_walkExpr e).bind fun _ => alike_walkExprs rest
termination_by sizeOf es

end

end Walk

/-! ### Files -/

section File

theorem walk_eraseIds (parts : List AmdPlugin) (kind : DefineKind) (identity : ModuleIdentity)
    (program : List Node) :
    ∃ state, FileState.walk (table parts kind) program { identity } = (.ok (), state) ∧
      FileState.walk (table parts kind) (eraseIdsOfNodes program) { identity } =
        (.ok (), state) := by
  have hnoted : Noted (parts.findSome? loader?).isSome [] [] { identity } := by
    rintro - (h | h) <;> exact absurd rfl h
  obtain ⟨⟨⟩, after, hrun, herased, -⟩ := alike_walkNodes program { identity } [] [] hnoted
  exact ⟨after.withMarks [], hrun, herased⟩

/-- **Ids of calls.**  Under a table of AMD plugins, whatever they are and whatever the order of
adding, walks over two programs that differ in nothing but the ids of their calls both succeed and
leave one state: the same dependencies, warnings and local modules, and the same marks on the file.
The ids may repeat, also in a call and in one inside it. -/
theorem walk_eq_of_eraseIds_eq (parts : List AmdPlugin) (kind : DefineKind)
    (identity : ModuleIdentity) {program other : List Node}
    (h : eraseIdsOfNodes program = eraseIdsOfNodes other) :
    ∃ state, FileState.walk (table parts kind) program { identity } = (.ok (), state) ∧
      FileState.walk (table parts kind) other { identity } = (.ok (), state) := by
  obtain ⟨state, hprogram, herased⟩ := walk_eraseIds parts kind identity program
  obtain ⟨state', hother, herased'⟩ := walk_eraseIds parts kind identity other
  rw [h, herased'] at herased
  obtain rfl : state' = state := congrArg Prod.snd herased
  exact ⟨state', hprogram, hother⟩

/-- Two interceptors around the plugins that claim lists and ids. -/
def twoInterceptors : List AmdPlugin :=
  [.interceptor "loader/first", .handler, .bystander "logger" .normal, .binder "require",
    .interceptor "loader/second"]

/-- A file with a `define` call inside another one. -/
def defineInDefine (outer inner : UInt32) : List Node :=
  [.expr <| .call outer {} "define"
    [.array {} [.str {} "require", .str {} "./a"],
      .function {} ["require", "a"] [.expr <| .call inner {} "define" [.object {}]]]]

theorem walk_defineInDefine :
    eraseIdsOfNodes (defineInDefine 1 1) = eraseIdsOfNodes (defineInDefine 1 2) ∧
      ∃ state : FileState,
        FileState.walk (table twoInterceptors .loader) (defineInDefine 1 1)
          { identity := ⟨some "m", "/m.js"⟩ } = (.ok (), state) ∧
        FileState.walk (table twoInterceptors .loader) (defineInDefine 1 2)
          { identity := ⟨some "m", "/m.js"⟩ } = (.ok (), state) :=
  ⟨rfl, walk_eq_of_eraseIds_eq twoInterceptors .loader ⟨some "m", "/m.js"⟩ rfl⟩

end File

end AmdPlugin
end AmdBundle
