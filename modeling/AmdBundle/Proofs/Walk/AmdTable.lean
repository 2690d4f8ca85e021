import AmdBundle.Dojo.Binder
import AmdBundle.Dojo.Interceptor
import AmdBundle.Proofs.Amd.Handler
import AmdBundle.Proofs.Amd.Items
import AmdBundle.Proofs.Walk.Order

/-!
# AmdBundle.Proofs.Walk.AmdTable — tables of AMD plugins

An `AmdPlugin` is one of the plugins that know AMD calls, or a bystander that passes on everything.
A table of such plugins, whatever the order of adding, answers as its parts say: lists and ids are
claimed by the first plugin that renders them (`answers_table`), calls by the handler
(`callRequire_eq`, `runFrom_callDefine`).  Where there is an interceptor the first one marks the file
before a `define` call and takes the mark off the call afterwards, unless the call is being handled
already.
-/

namespace AmdBundle

/-- A plugin for AMD calls, or one that passes on everything. -/
inductive AmdPlugin where
  | handler
  | interceptor (loaderRequest : String)
  | binder (requireIdent : String)
  | bystander (name : String) (level : PluginLevel)
  deriving DecidableEq, Repr

namespace AmdPlugin

open HookTable

def toPlugin : AmdPlugin → Plugin
  | handler => Amd.handler
  | interceptor loaderRequest => Dojo.interceptor loaderRequest
  | binder requireIdent => Dojo.binder requireIdent
  | bystander name level => { name, level }

def table (parts : List AmdPlugin) (kind : DefineKind) : HookTable :=
  { (parts.map toPlugin).foldl HookTable.add .empty with defineKind := kind }

def atLevel (parts : List AmdPlugin) (level : PluginLevel) : List AmdPlugin :=
  parts.filter fun part => part.toPlugin.level == level

def ordered (parts : List AmdPlugin) : List AmdPlugin :=
  atLevel parts .pre ++ (atLevel parts .normal ++ atLevel parts .post)

/-- What an interceptor adds to a file. -/
def loader? : AmdPlugin → Option String
  | interceptor loaderRequest => some loaderRequest
  | _ => none

/-- How a plugin renders pseudo-modules, if it claims lists and ids. -/
def render? : AmdPlugin → Option (ModuleIdentity → Render)
  | handler => some fun _ => Amd.hostRender
  | binder requireIdent => some (Dojo.render requireIdent)
  | _ => none

variable {parts : List AmdPlugin} {kind : DefineKind} {part : AmdPlugin}

/-! ### The order of the plugins -/

theorem plugins_table : (table parts kind).plugins = (ordered parts).map toPlugin := by
  show ((parts.map toPlugin).foldl HookTable.add .empty).plugins = _
  rw [plugins_foldl_add, byLevel, List.filter_map, List.filter_map, List.filter_map, ordered,
    List.map_append, List.map_append, List.append_assoc]
  rfl

@[simp] theorem mem_ordered : part ∈ ordered parts ↔ part ∈ parts := by
  simp only [ordered, atLevel, List.mem_append, List.mem_filter, beq_iff_eq]
  constructor
  · rintro (⟨h, -⟩ | ⟨h, -⟩ | ⟨h, -⟩) <;> exact h
  · intro h
    cases hlevel : part.toPlugin.level with
    | pre => exact .inl ⟨h, rfl⟩
    | normal => exact .inr (.inl ⟨h, rfl⟩)
    | post => exact .inr (.inr ⟨h, rfl⟩)

theorem loader?_of_level (h : part.toPlugin.level ≠ .pre) : part.loader? = none := by
  cases part with
  | interceptor loaderRequest => exact absurd rfl h
  | handler => rfl
  | binder requireIdent => rfl
  | bystander name level => rfl

theorem findSome?_loader?_atLevel {level : PluginLevel} (h : level ≠ .pre) :
    (atLevel parts level).findSome? loader? = none := by
  rw [List.findSome?_eq_none_iff]
  intro part hpart
  have hlevel := (List.mem_filter.mp hpart).2
  rw [beq_iff_eq] at hlevel
  exact loader?_of_level (hlevel ▸ h)

theorem findSome?_loader?_pre :
    (atLevel parts .pre).findSome? loader? = parts.findSome? loader? := by
  induction parts with
  | nil => rfl
  | cons part parts ih =>
    rw [atLevel, List.filter_cons]
    by_cases hlevel : part.toPlugin.level = .pre
    · rw [if_pos (beq_iff_eq.mpr hlevel), List.findSome?_cons, List.findSome?_cons]
      cases part.loader? with
      | some loader => rfl
      | none => exact ih
    · rw [if_neg (by simpa using hlevel), List.findSome?_cons, loader?_of_level hlevel]
      exact ih

/-! ### Lists and ids -/

section Lists

variable {call : Call} {walk : Walker call} {param : Expr} {named : Option String}

theorem askWithSlots_map (slots : Slots) :
    askWithSlots (fun plugin slots => plugin.amdArray call walk param slots named)
        (parts.map toPlugin) slots =
      match parts.findSome? render? with
      | some render => Amd.claimArray render param slots named
      | none => pure (.pass, slots) := by
  induction parts with
  | nil => rfl
  | cons part parts ih =>
    -- what the rest would do with a list that is not one to be claimed
    have hrest : param.evaluate.isConstArray = false →
        askWithSlots (fun plugin slots => plugin.amdArray call walk param slots named)
          (parts.map toPlugin) slots = pure (.pass, slots) := by
      intro hconst
      rw [ih]
      cases parts.findSome? render? with
      | some render => exact Amd.claimArray_of_not hconst slots
      | none => rfl
    rw [List.map_cons, askWithSlots, List.findSome?_cons]
    cases part with
    | handler => exact Amd.claimArray_bind (fun _ => Amd.hostRender) hrest
    | binder requireIdent => exact Amd.claimArray_bind (Dojo.render requireIdent) hrest
    | interceptor loaderRequest => exact ih
    | bystander name level => exact ih

theorem ask_amdItem_map :
    ask (fun plugin => plugin.amdItem call walk param named) (parts.map toPlugin) =
      match parts.findSome? render? with
      | some render => Amd.claimItem render param named
      | none => pure .pass := by
  induction parts with
  | nil => rfl
  | cons part parts ih =>
    have hrest : param.evaluate.isString = false →
        ask (fun plugin => plugin.amdItem call walk param named) (parts.map toPlugin) =
          pure .pass := by
      intro hstring
      rw [ih]
      cases parts.findSome? render? with
      | some render => exact Amd.claimItem_of_not hstring
      | none => rfl
    rw [List.map_cons, ask, List.findSome?_cons]
    cases part with
    | handler => exact Amd.claimItem_bind (fun _ => Amd.hostRender) hrest
    | binder requireIdent => exact Amd.claimItem_bind (Dojo.render requireIdent) hrest
    | interceptor loaderRequest => exact ih
    | bystander name level => exact ih

theorem exists_render (h : .handler ∈ parts) :
    ∃ render, (ordered parts).findSome? render? = some render := by
  rw [← Option.isSome_iff_exists, List.findSome?_isSome_iff]
  exact ⟨.handler, mem_ordered.mpr h, rfl⟩

end Lists

/-! ### Calls of `require` -/

section Require

variable {call : Call} {host : CallHost call}

theorem ask_callRequire_map :
    ask (fun plugin => plugin.callRequire call host) (parts.map toPlugin) =
      if .handler ∈ parts then Amd.callRequire call host else pure .pass := by
  induction parts with
  | nil => rfl
  | cons part parts ih =>
    rw [List.map_cons, ask]
    cases part with
    | handler =>
      rw [if_pos List.mem_cons_self]
      refine Amd.callRequire_bind fun hnone => ?_
      rw [ih, Amd.callRequire_of_none hnone, ite_self]
    | binder requireIdent =>
      simp only [List.mem_cons, reduceCtorEq, false_or]
      exact ih
    | interceptor loaderRequest =>
      simp only [List.mem_cons, reduceCtorEq, false_or]
      exact ih
    | bystander name level =>
      simp only [List.mem_cons, reduceCtorEq, false_or]
      exact ih

end Require

/-! ### Calls of `define` -/

section Define

variable {call : Call} {walk : Walker call} {base : HookTable} {again : WalkM Verdict}
  {state : FileState}

/-- What a round for a `define` call asks. -/
def defineHook (base : HookTable) (call : Call) (walk : Walker call) (again : WalkM Verdict)
    (plugin : Plugin) : WalkM Verdict :=
  plugin.callDefine call (base.host call walk again)

/-- What the handler does with a `define` call. -/
def handled (base : HookTable) (call : Call) (walk : Walker call) : WalkM Verdict :=
  Amd.callDefine call (base.host call walk (pure .pass))

/-- The file when an interceptor has seen a `define` call. -/
def mark (loaderRequest : String) (id : UInt32) (state : FileState) : FileState :=
  { Dojo.injectLoader loaderRequest { state with processing := id :: state.processing } with
    isAmd := true }

section Mark

variable (loaderRequest : String) (id : UInt32) (state : FileState)

@[simp] theorem processing_injectLoader :
    (Dojo.injectLoader loaderRequest state).processing = state.processing := by
  unfold Dojo.injectLoader
  cases state.loaderInjected <;> rfl

@[simp] theorem loaderInjected_injectLoader :
    (Dojo.injectLoader loaderRequest state).loaderInjected = true := by
  unfold Dojo.injectLoader
  cases hinjected : state.loaderInjected with
  | false => rfl
  | true => exact hinjected

@[simp] theorem processing_mark :
    (mark loaderRequest id state).processing = id :: state.processing := by
  rw [mark, processing_injectLoader]

@[simp] theorem loaderInjected_mark : (mark loaderRequest id state).loaderInjected = true := by
  rw [mark, loaderInjected_injectLoader]

theorem contains_mark : (mark loaderRequest id state).processing.contains id = true := by
  simp

theorem leave_mark :
    (mark loaderRequest id state).leave id =
      { Dojo.injectLoader loaderRequest state with isAmd := true } := by
  unfold mark Dojo.injectLoader FileState.leave
  cases hinjected : state.loaderInjected <;> simp [FileState.record, hinjected]

end Mark

/-- What an interceptor does with a `define` call depends on whether it is being handled already. -/
theorem runFrom_defineHook (loaderRequest : String) :
    (defineHook base call walk again (Dojo.interceptor loaderRequest)).runFrom state =
      match state.enter? call.id with
      | none => (.ok .pass, state)
      | some entered =>
        Dojo.intercept loaderRequest call (base.host call walk again) entered := rfl

theorem handled_of_none (h : Amd.DefineArgs.ofArgs? call.args = none) :
    handled base call walk = pure .pass := Amd.callDefine_of_none h

/-- What becomes of a `define` call, marks apart: it is the handler's if the handler is asked. -/
def answered (parts : List AmdPlugin) (base : HookTable) (call : Call) (walk : Walker call) :
    WalkM Verdict :=
  if .handler ∈ parts then handled base call walk else pure .pass

theorem answered_of_mem (h : .handler ∈ parts) :
    answered parts base call walk = handled base call walk := if_pos h

theorem answered_congr {others : List AmdPlugin} (h : .handler ∈ parts ↔ .handler ∈ others) :
    answered parts base call walk = answered others base call walk := by
  simp only [answered, h]

theorem answered_cases (parts : List AmdPlugin) (base : HookTable) (call : Call)
    (walk : Walker call) :
    answered parts base call walk = pure .pass ∨
      ∃ x : WalkM Unit, answered parts base call walk = x >>= fun _ => pure .claim := by
  rw [answered]
  split
  · cases hargs : Amd.DefineArgs.ofArgs? call.args with
    | none => exact .inl (handled_of_none hargs)
    | some args => exact .inr ⟨_, Amd.callDefine_of_some hargs⟩
  · exact .inl rfl

theorem runFrom_ask_of_pass
    (hpass : ∀ loaderRequest, .interceptor loaderRequest ∈ parts →
      (defineHook base call walk again (Dojo.interceptor loaderRequest)).runFrom state =
        (.ok .pass, state)) :
    (ask (defineHook base call walk again) (parts.map toPlugin)).runFrom state =
      (answered parts base call walk).runFrom state := by
  unfold answered
  -- by induction on the plugins: the first handler answers, and all in front of it pass
  induction parts with
  | nil => rfl
  | cons part parts ih =>
    have ih := ih fun loaderRequest hmem => hpass loaderRequest (List.mem_cons_of_mem _ hmem)
    rw [List.map_cons, ask]
    cases part with
    | handler =>
      rw [if_pos List.mem_cons_self]
      cases hargs : Amd.DefineArgs.ofArgs? call.args with
      | none =>
        have hnone : (defineHook base call walk again (toPlugin .handler)).runFrom state =
            (.ok .pass, state) := by
          show (handled base call walk).runFrom state = _
          rw [handled_of_none hargs]
          rfl
        rw [WalkM.runFrom_bind_of_ok hnone]
        show (ask _ _).runFrom state = _
        rw [ih, handled_of_none hargs, ite_self]
      | some args =>
        refine congrArg (fun step => WalkM.runFrom step state) (Amd.callDefine_bind fun hnone => ?_)
        rw [hargs] at hnone
        exact absurd hnone (by simp)
    | interceptor loaderRequest =>
      have hpass : (defineHook base call walk again (toPlugin (.interceptor loaderRequest))).runFrom
          state = (.ok .pass, state) := hpass loaderRequest List.mem_cons_self
      rw [WalkM.runFrom_bind_of_ok hpass]
      simp only [List.mem_cons, reduceCtorEq, false_or]
      exact ih
    | binder requireIdent =>
      simp only [List.mem_cons, reduceCtorEq, false_or]
      exact ih
    | bystander name level =>
      simp only [List.mem_cons, reduceCtorEq, false_or]
      exact ih

theorem runFrom_ask_of_mem (hmem : state.processing.contains call.id = true) :
    (ask (defineHook base call walk again) (parts.map toPlugin)).runFrom state =
      (answered parts base call walk).runFrom state := by
  refine runFrom_ask_of_pass fun loaderRequest _ => ?_
  rw [runFrom_defineHook, FileState.enter?, if_pos hmem]

/-- An interceptor puts its mark on a call that is not being handled, and takes it off in the end.
-/
theorem runFrom_defineHook_interceptor (loaderRequest : String)
    (hmem : state.processing.contains call.id = false) :
    (defineHook base call walk again (Dojo.interceptor loaderRequest)).runFrom state =
      ((again.runFrom (mark loaderRequest call.id state)).1,
        (again.runFrom (mark loaderRequest call.id state)).2.leave call.id) := by
  rw [runFrom_defineHook, FileState.enter?, hmem, if_neg Bool.false_ne_true]
  rfl

/-- Interceptors that find a file marked leave nothing in it for a call that nobody claims. -/
theorem runFrom_ask_of_marked (hpass : answered parts base call walk = pure .pass)
    (hagain : ∀ state : FileState, state.processing.contains call.id = true →
      again.runFrom state = (.ok .pass, state))
    (hmem : state.processing.contains call.id = false) (hinjected : state.loaderInjected = true)
    (hisAmd : state.isAmd = true) :
    (ask (defineHook base call walk again) (parts.map toPlugin)).runFrom state =
      (.ok .pass, state) := by
  have hall : (ask (defineHook base call walk again) (parts.map toPlugin)).runFrom state =
      (answered parts base call walk).runFrom state := by
    refine runFrom_ask_of_pass fun loaderRequest _ => ?_
    rw [runFrom_defineHook_interceptor loaderRequest hmem,
      hagain _ (contains_mark loaderRequest call.id state), leave_mark, Dojo.injectLoader,
      if_pos hinjected, ← hisAmd]
  rw [hall, hpass]
  rfl

/-- A call that is claimed in the second round is offered to nobody else in the first. -/
theorem runFrom_bind_of_claimed {id : UInt32} {hook : WalkM Verdict} {marked : FileState}
    {x : WalkM Unit}
    (hhook : hook.runFrom state =
      (((x >>= fun _ => pure Verdict.claim).runFrom marked).1,
        ((x >>= fun _ => pure Verdict.claim).runFrom marked).2.leave id)) (rest : WalkM Verdict) :
    (hook >>= fun verdict =>
      match verdict with
      | .claim => pure .claim
      | .pass => rest).runFrom state = hook.runFrom state := by
  rw [WalkM.runFrom_bind, hhook, WalkM.runFrom_bind]
  rcases x.runFrom marked with ⟨error | value, after⟩ <;> rfl

theorem runFrom_ask_of_not_mem {front back : List AmdPlugin}
    (hmem : state.processing.contains call.id = false)
    (hagain : ∀ state : FileState, state.processing.contains call.id = true →
      again.runFrom state = (answered back base call walk).runFrom state)
    (hfront : .handler ∉ front) (hback : back.findSome? loader? = none) :
    (ask (defineHook base call walk again) ((front ++ back).map toPlugin)).runFrom state =
      match front.findSome? loader? with
      | some loaderRequest =>
        (((answered back base call walk).runFrom (mark loaderRequest call.id state)).1,
          ((answered back base call walk).runFrom
            (mark loaderRequest call.id state)).2.leave call.id)
      | none => (answered back base call walk).runFrom state := by
  induction front with
  | nil =>
    refine runFrom_ask_of_pass fun loaderRequest hloader => ?_
    have hnone := List.findSome?_eq_none_iff.mp hback _ hloader
    exact absurd hnone (by simp [loader?])
  | cons part front ih =>
    have hrest : .handler ∉ front := fun h => hfront (List.mem_cons_of_mem _ h)
    have ih := ih hrest
    rw [List.cons_append, List.map_cons, ask, List.findSome?_cons]
    cases part with
    | handler => exact absurd List.mem_cons_self hfront
    | binder requireIdent => exact ih
    | bystander name level => exact ih
    | interceptor loaderRequest =>
      have hfirst : (defineHook base call walk again
          (toPlugin (.interceptor loaderRequest))).runFrom state = _ :=
        runFrom_defineHook_interceptor loaderRequest hmem
      rw [hagain _ (contains_mark loaderRequest call.id state)] at hfirst
      rcases answered_cases back base call walk with hpass | ⟨x, hclaim⟩
      · -- nobody claims it: the mark stays, and the other interceptors find it
        rw [hpass, WalkM.runFrom_pure, leave_mark] at hfirst
        rw [WalkM.runFrom_bind_of_ok hfirst, hpass]
        show (ask _ _).runFrom _ = (.ok .pass, (mark loaderRequest call.id state).leave call.id)
        rw [leave_mark]
        have hsame : answered (front ++ back) base call walk = answered back base call walk :=
          answered_congr (by simp [hrest])
        refine runFrom_ask_of_marked ?_ (fun state hinside => ?_) ?_ ?_ rfl
        · rw [hsame, hpass]
        · rw [hagain state hinside, hpass, WalkM.runFrom_pure]
        · rw [processing_injectLoader, hmem]
        · rw [loaderInjected_injectLoader]
      · rw [hclaim] at hfirst ⊢
        exact (runFrom_bind_of_claimed hfirst _).trans hfirst

end Define

/-! ### The table -/

section Table

variable {call : Call} {walk : Walker call}

/-- How the table renders, if it has the handler. -/
def rendering (parts : List AmdPlugin) : ModuleIdentity → Render :=
  ((ordered parts).findSome? render?).getD fun _ => Amd.hostRender

theorem answers_rendering (h : .handler ∈ parts) :
    (table parts kind).amdArray call walk = Amd.claimArray (rendering parts) ∧
      (table parts kind).amdItem call walk = Amd.claimItem (rendering parts) := by
  obtain ⟨render, hrender⟩ := exists_render h
  have hrendering : rendering parts = render := by rw [rendering, hrender, Option.getD_some]
  refine ⟨?_, ?_⟩
  · funext param slots named
    rw [amdArray, plugins_table, askWithSlots_map, hrendering, hrender]
  · funext param named
    rw [amdItem, plugins_table, ask_amdItem_map, hrendering, hrender]

/-- In a table with the handler one render serves all lists and ids. -/
theorem answers_table (h : .handler ∈ parts) :
    ∃ render, (table parts kind).amdArray call walk = Amd.claimArray render ∧
      (table parts kind).amdItem call walk = Amd.claimItem render :=
  ⟨rendering parts, answers_rendering h⟩

theorem callRequire_eq (parts : List AmdPlugin) (kind : DefineKind) (call : Call)
    (walk : Walker call) :
    (table parts kind).callRequire call walk =
      if .handler ∈ parts then
        Amd.callRequire call ((table parts kind).host call walk (pure .pass))
      else pure .pass := by
  rw [callRequire, twoRounds, plugins_table, ask_callRequire_map]
  simp only [mem_ordered]
  rfl

theorem callRequire_table (h : .handler ∈ parts) :
    (table parts kind).callRequire call walk =
      Amd.callRequire call ((table parts kind).host call walk (pure .pass)) := by
  rw [callRequire_eq, if_pos h]

theorem runFrom_callDefine (parts : List AmdPlugin) (kind : DefineKind) (call : Call)
    (walk : Walker call) (state : FileState) :
    ((table parts kind).callDefine call walk).runFrom state =
      match parts.findSome? loader? with
      | none => (answered parts (table parts kind) call walk).runFrom state
      | some loaderRequest =>
        if state.processing.contains call.id then
          (answered parts (table parts kind) call walk).runFrom state
        else
          (((answered parts (table parts kind) call walk).runFrom
              (mark loaderRequest call.id state)).1,
            ((answered parts (table parts kind) call walk).runFrom
              (mark loaderRequest call.id state)).2.leave call.id) := by
  have hordered : answered (ordered parts) (table parts kind) call walk =
      answered parts (table parts kind) call walk := answered_congr mem_ordered
  rw [callDefine, twoRounds, plugins_table]
  show (ask (defineHook (table parts kind) call walk _) ((ordered parts).map toPlugin)).runFrom
    state = _
  -- inside a call of the same id interceptors pass the call on
  cases hmem : state.processing.contains call.id with
  | true =>
    rw [runFrom_ask_of_mem hmem, hordered]
    cases parts.findSome? loader? <;> rfl
  | false =>
    -- interceptors are of the first level: behind it there is none, and in it no handler
    have hfront : .handler ∉ atLevel parts .pre := by
      intro hpre
      exact absurd (List.mem_filter.mp hpre).2 (by decide)
    have hback : (atLevel parts .normal ++ atLevel parts .post).findSome? loader? = none := by
      rw [List.findSome?_append, findSome?_loader?_atLevel (by decide),
        findSome?_loader?_atLevel (by decide), Option.none_or]
    have hlast : answered (atLevel parts .normal ++ atLevel parts .post) (table parts kind) call
        walk = answered parts (table parts kind) call walk := by
      refine (answered_congr ?_).trans hordered
      rw [ordered, List.mem_append (s := atLevel parts .pre)]
      exact ⟨.inr, fun h => h.resolve_left hfront⟩
    have hagain : ∀ state : FileState, state.processing.contains call.id = true →
        (ask (defineHook (table parts kind) call walk (pure .pass))
          ((ordered parts).map toPlugin)).runFrom state =
            (answered (atLevel parts .normal ++ atLevel parts .post) (table parts kind) call
              walk).runFrom state := by
      intro state hinside
      rw [runFrom_ask_of_mem hinside, hordered, hlast]
    refine (runFrom_ask_of_not_mem hmem hagain hfront hback).trans ?_
    rw [findSome?_loader?_pre, hlast]
    cases parts.findSome? loader? <;> rfl

theorem runFrom_callDefine_table (h : .handler ∈ parts) (state : FileState) :
    ((table parts kind).callDefine call walk).runFrom state =
      match parts.findSome? loader? with
      | none => (handled (table parts kind) call walk).runFrom state
      | some loaderRequest =>
        if state.processing.contains call.id then
          (handled (table parts kind) call walk).runFrom state
        else
          (((handled (table parts kind) call walk).runFrom (mark loaderRequest call.id state)).1,
            ((handled (table parts kind) call walk).runFrom
              (mark loaderRequest call.id state)).2.leave call.id) := by
  rw [runFrom_callDefine, answered_of_mem h]

end Table

end AmdPlugin
end AmdBundle
