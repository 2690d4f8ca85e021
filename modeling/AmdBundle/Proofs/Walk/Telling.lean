import AmdBundle.Proofs.Walk.Account

/-!
# AmdBundle.Proofs.Walk.Telling — walks take the notes that are told

A step `Tells` a relation between the local modules before and after and the notes between them if
it succeeds and leaves a file with such notes.  The relation keeps to the way steps are put together
(`WalkM.Tells.bind`), what the handler does with a call tells what the rules of `Told` say of the
call, and a whole walk tells what they say of the program (`exists_told_walk`).

An interceptor gets in front of the handler at one place only, where a `define` call is offered: it
may note the loader's script there, and what it marks of the file otherwise is not noted.
-/

namespace AmdBundle

open Amd

/-- What notes are taken, given the `try` mark, between the local modules before and after. -/
abbrev Telling : Type := Bool → LocalModules → List Note → LocalModules → Prop

namespace Telling

def silence : Telling := fun _ locals notes after => notes = [] ∧ after = locals

def one (entry : Entry) : Telling := fun inTry locals notes after =>
  notes = [.said entry locals inTry] ∧ after = locals

def andThen (first second : Telling) : Telling := fun inTry locals notes after =>
  ∃ before behind mid, notes = before ++ behind ∧ first inTry locals before mid ∧
    second inTry mid behind after

end Telling

/-- In a file of the manner's module the step succeeds, and takes notes as the telling says.  Of the
value that it gives, `post` is known. -/
def WalkM.Tells {α : Type} (m : Manner) (tells : Telling) (post : α → Prop) (x : WalkM α) : Prop :=
  ∀ state : FileState, state.identity = m.identity →
    ∃ a after notes, x.runFrom state = (.ok a, after) ∧ post a ∧ state.Noted m notes after ∧
      tells state.inTry state.locals notes after.locals

namespace WalkM.Tells

variable {α β : Type} {m : Manner} {tells tells' : Telling} {post : α → Prop} {x : WalkM α}

theorem mono (h : Tells m tells post x)
    (hmono : ∀ {inTry locals notes after}, tells inTry locals notes after →
      tells' inTry locals notes after) : Tells m tells' post x := by
  intro state hidentity
  obtain ⟨a, after, notes, hrun, ha, hnoted, htold⟩ := h state hidentity
  exact ⟨a, after, notes, hrun, ha, hnoted, hmono htold⟩

theorem pure {a : α} (h : post a) : Tells m .silence post (Pure.pure a : WalkM α) :=
  fun state _ => ⟨a, state, [], rfl, h, .refl m state, rfl, rfl⟩

theorem pure_of {a : α} (ha : post a) (h : ∀ {inTry locals}, tells inTry locals [] locals) :
    Tells m tells post (Pure.pure a : WalkM α) := by
  refine (pure ha).mono ?_
  rintro inTry locals notes after ⟨rfl, rfl⟩
  exact h

theorem bind {goal : β → Prop} {k : α → WalkM β} (h : Tells m tells post x)
    (hk : ∀ a, post a → Tells m tells' goal (k a)) :
    Tells m (tells.andThen tells') goal (x >>= k) := by
  intro state hidentity
  obtain ⟨a, mid, notes, hrun, ha, hnoted, htold⟩ := h state hidentity
  obtain ⟨b, after, notes', hrun', hb, hnoted', htold'⟩ :=
    hk a ha mid (hnoted.identity.trans hidentity)
  rw [hnoted.inTry] at htold'
  refine ⟨b, after, notes ++ notes', ?_, hb, hnoted.trans hnoted', ?_⟩
  · rw [WalkM.runFrom_bind_of_ok hrun, hrun']
  · exact ⟨notes, notes', mid.locals, rfl, htold, htold'⟩

theorem bind_silence {goal : β → Prop} {k : α → WalkM β} (h : Tells m tells post x)
    (hk : ∀ a, post a → Tells m .silence goal (k a)) : Tells m tells goal (x >>= k) := by
  refine (h.bind hk).mono ?_
  rintro inTry locals notes after ⟨before, behind, mid, rfl, htold, rfl, rfl⟩
  rwa [List.append_nil]

theorem withTry (value : Bool) (h : Tells m tells post x) :
    Tells m (fun _ => tells value) post (WalkM.withTry value x) := by
  intro state hidentity
  obtain ⟨a, after, notes, hrun, ha, hnoted, htold⟩ := h { state with inTry := value } hidentity
  refine ⟨a, { after with inTry := state.inTry }, notes, ?_, ha, hnoted.withTry, htold⟩
  rw [WalkM.runFrom_withTry, hrun]

end WalkM.Tells

/-! ### What the handler does with a call -/

namespace Amd

variable {m : Manner} {call : Call} {host : CallHost call}

theorem tells_warnAt {entry : Entry} {what problem : String} {place : UInt32}
    (hwarnings : entry.warnings m =
      [m.identity.request ++ ": " ++ what ++ " at " ++ placeText place ++ " " ++ problem])
    (hdependencies : ∀ locals inTry, entry.dependencies m locals inTry = []) :
    (warnAt what place problem).Tells m (.one entry) fun _ => True := by
  intro state hidentity
  refine ⟨(), _, [_], rfl, trivial, ⟨rfl, rfl, ?_, ?_⟩, rfl, rfl⟩
  · rw [List.flatMap_singleton, Note.dependencies, hdependencies]
    exact (List.append_nil _).symm
  · rw [List.flatMap_singleton, Note.warnings, hwarnings, ← hidentity]
    rfl

theorem tells_noId (place : UInt32) :
    (warnAt "dependency" place "is not a string literal").Tells m (.one (.noId place))
      fun _ => True := tells_warnAt rfl fun _ _ => rfl

theorem tells_noList (place : UInt32) :
    (warnAt "dependency list" place "is not a constant array").Tells m (.one (.noList place))
      fun _ => True := tells_warnAt rfl fun _ _ => rfl

theorem noted_addArray {render : ModuleIdentity → Render} (hrender : render m.identity = m.render)
    {state : FileState} (hidentity : state.identity = m.identity) (ids : List String) (span : Span)
    (slots : Slots) (named : Option String) :
    state.Noted m [.said (.list span ids named) state.locals state.inTry]
      (state.addArray ids span slots named (render state.identity)).1 := by
  have hlist : state.listDependencies ids span named (render state.identity) =
      Entry.dependencies m state.locals state.inTry (.list span ids named) := by
    rw [hidentity, hrender]
    exact FileState.listDependencies_congr hidentity rfl rfl
  rw [FileState.fst_addArray, hlist]
  exact .recorded rfl rfl rfl rfl rfl

theorem noted_addItem {render : ModuleIdentity → Render} (hrender : render m.identity = m.render)
    {state : FileState} (hidentity : state.identity = m.identity) (id : String) (span : Span)
    (named : Option String) :
    state.Noted m [.said (.single span id named) state.locals state.inTry]
      (state.addItem id span named (render state.identity)) := by
  have hitem : state.classify id named m.render =
      FileState.classify { identity := m.identity, locals := state.locals } id named m.render :=
    FileState.classify_congr hidentity rfl
  rw [FileState.addItem, hidentity, hrender, hitem]
  exact .recorded rfl rfl rfl rfl rfl

theorem length_of_mapM_literal? {elements : List Expr} {ids : List String}
    (h : elements.mapM Expr.literal? = some ids) : elements.length = ids.length := by
  induction elements generalizing ids with
  | nil =>
    obtain rfl : [] = ids := Option.some.inj h
    rfl
  | cons first elements ih =>
    rw [List.mapM_cons] at h
    obtain ⟨text, -, h⟩ := Option.bind_eq_some_iff.mp h
    obtain ⟨rest, hrest, hcons⟩ := Option.bind_eq_some_iff.mp h
    obtain rfl : text :: rest = ids := Option.some.inj hcons
    rw [List.length_cons, List.length_cons, ih hrest]

theorem emptySlots_of_constArray {list : Expr} {ids : List String}
    (h : list.evaluate = .constArray ids) : emptySlots list = ids.map fun _ => none := by
  obtain ⟨span, elements, rfl, hall⟩ := literals_of_constArray h
  show elements.map (fun _ => none) = _
  rw [List.map_const', List.map_const', length_of_mapM_literal? hall]

theorem boundNames_of_constArray {list : Expr} {ids : List String}
    (h : list.evaluate = .constArray ids) : boundNames list = ids.map PseudoModule.bound? := by
  rw [boundNames, h]

theorem boundNames_of_not {list : Expr} (h : list.evaluate.isConstArray = false) :
    boundNames list = emptySlots list := by
  rw [boundNames]
  cases hlist : list.evaluate with
  | constArray ids =>
    rw [hlist] at h
    exact absurd h (by simp [Evaluated.isConstArray])
  | string value => rfl
  | dynamic => rfl

/-- A host of a call that takes notes of what it walks, and answers in the manner of its table. -/
structure HostTells (m : Manner) (host : CallHost call) : Prop where
  walk : ∀ e h, (host.walk e h).Tells m (Told (.expr e)) fun _ => True
  kind : host.defineKind = m.kind
  answers : ∃ render, render m.identity = m.render ∧ host.askArray = claimArray render ∧
    host.askItem = claimItem render

section Handler

variable (tells : HostTells m host)

include tells

theorem tells_processElement (named : Option String) (element : Expr)
    (h : sizeOf element < sizeOf call.args) :
    (processElement host named element h).Tells m
      (fun inTry locals notes after =>
        (∃ id, element.evaluate = .string id ∧
          Telling.one (.single element.span id named) inTry locals notes after) ∨
        element.evaluate.isString = false ∧
          (Telling.one (.noId element.span.start)).andThen (Told (.expr element)) inTry locals notes
            after)
      fun _ => True := by
  obtain ⟨render, hrender, -, hask⟩ := tells.answers
  rw [processElement, hask]
  cases hstring : element.evaluate.isString with
  | true =>
    obtain ⟨id, hid⟩ := exists_of_isString hstring
    intro state hidentity
    rw [WalkM.runFrom_bind_of_ok (runFrom_claimItem hid state)]
    exact ⟨(), _, _, rfl, trivial, noted_addItem hrender hidentity id _ named,
      .inl ⟨id, hid, rfl, rfl⟩⟩
  | false =>
    rw [claimItem_of_not hstring, pure_bind]
    refine ((tells_noId _).bind fun _ _ => tells.walk element h).mono fun htold => ?_
    exact .inr ⟨rfl, htold⟩

theorem tells_forM_processElement {γ : Type} (named : Option String) (element : γ → Expr)
    (h : ∀ x, sizeOf (element x) < sizeOf call.args) (xs : List γ) :
    (xs.forM fun x => processElement host named (element x) (h x)).Tells m
      (Told (.elements (xs.map element) named)) fun _ => True := by
  induction xs with
  | nil => exact .pure_of trivial .elements_nil
  | cons x xs ih =>
    refine ((tells_processElement tells named (element x) (h x)).bind fun _ _ => ih).mono ?_
    rintro inTry locals notes after ⟨before, behind, mid, rfl, helement, hrest⟩
    rcases helement with ⟨id, hid, rfl, rfl⟩ | ⟨hid, _, notes', _, rfl, ⟨rfl, rfl⟩, helement⟩
    · exact .elements_id hid hrest
    · exact .elements_other hid helement hrest

theorem tells_processArray (list : Argument call.args) (named : Option String) :
    (processArray host list (emptySlots list.1) named).Tells m (Told (.list (some list.1) named))
      fun slots => slots = boundNames list.1 := by
  obtain ⟨render, hrender, hask, -⟩ := tells.answers
  cases hconst : list.1.evaluate.isConstArray with
  | true =>
    obtain ⟨ids, hids⟩ := exists_of_isConstArray hconst
    intro state hidentity
    rw [processArray, hask,
      WalkM.runFrom_bind_of_ok (runFrom_claimArray hids (emptySlots list.1) state)]
    refine ⟨_, _, _, rfl, ?_, noted_addArray hrender hidentity ids _ _ named, .const_list hids⟩
    rw [boundNames_of_constArray hids, FileState.snd_addArray_none (emptySlots_of_constArray hids)]
  | false =>
    have hslots : (pure (emptySlots list.1) : WalkM Slots).Tells m .silence
        fun slots => slots = boundNames list.1 := .pure (boundNames_of_not hconst).symm
    cases harray : list.1.isArray with
    | false =>
      rw [processArray_of_not_array harray, hask, claimArray_of_not hconst, pure_bind]
      refine ((tells_noList _).bind_silence fun _ _ => hslots).mono ?_
      rintro inTry locals notes after ⟨rfl, rfl⟩
      exact .other_list harray
    | true =>
      obtain ⟨e, he⟩ := list
      cases e with
      | array span elements =>
        rw [processArray_of_array rfl, hask, claimArray_of_not hconst, pure_bind]
        have helements := tells_forM_processElement tells named Subtype.val
          (fun element => sizeOf_lt_of_mem_elements he rfl element.2) elements.attach
        rw [List.attach_map_subtype_val] at helements
        exact (helements.bind_silence fun _ _ => hslots).mono fun htold => .mixed_list hconst htold
      | _ => simp [Expr.isArray] at harray

theorem tells_forM_walkArgument (arguments : List (Argument call.args)) :
    (arguments.forM (walkArgument host)).Tells m
      (Told (.exprs (arguments.map Subtype.val))) fun _ => True := by
  induction arguments with
  | nil => exact .pure_of trivial .exprs_nil
  | cons argument arguments ih =>
    have hfirst : (walkArgument host argument).Tells m (Told (.expr argument.1)) fun _ => True :=
      tells.walk argument.1 _
    refine (hfirst.bind fun _ _ => ih).mono ?_
    rintro inTry locals notes after ⟨before, behind, mid, rfl, hargument, hrest⟩
    exact .exprs_cons hargument hrest

theorem tells_processList (args : DefineArgs call.args) :
    (processList host args).Tells m (Told (.list (args.array.map Subtype.val) args.name))
      fun slots => slots = args.array.elim [] fun list => boundNames list.1 := by
  obtain ⟨name, array, body⟩ := args
  cases array with
  | none => exact .pure_of rfl .no_list
  | some list => exact tells_processArray tells list name

theorem tells_walkBody (args : DefineArgs call.args) :
    (walkBody host args).Tells m (Told (.exprs (args.body.toList.map Subtype.val)))
      fun _ => True := by
  obtain ⟨name, array, body⟩ := args
  cases body with
  | none => exact .pure_of trivial .exprs_nil
  | some body =>
    have hbody : (walkArgument host body).Tells m (Told (.expr body.1)) fun _ => True :=
      tells.walk body.1 _
    refine hbody.mono fun {inTry locals notes after} htold => ?_
    have hexprs := Told.exprs_cons htold .exprs_nil
    rwa [List.append_nil] at hexprs

/-- A `define` call is recorded with the local module declared before all else. -/
theorem tells_handleDefine {args : DefineArgs call.args} (hcallee : call.callee = "define")
    (hargs : DefineArgs.ofArgs? call.args = some args) :
    (handleDefine host args).Tells m (Told (.expr call.toExpr)) fun _ => True := by
  intro state hidentity
  let declared : FileState := { state with locals := state.locals.declare args.name }
  have hdeclare : (declare args.name).runFrom state =
      (.ok (state.locals.declared args.name), declared) := by
    obtain ⟨name, array, body⟩ := args
    cases name <;> rfl
  obtain ⟨slots, mid, notes, hlist, rfl, hnoted, htold⟩ :=
    tells_processList tells args declared hidentity
  obtain ⟨_, after, notes', hbody, -, hnoted', htold'⟩ :=
    tells_walkBody tells args mid (hnoted.identity.trans hidentity)
  rw [hnoted.inTry] at htold'
  let dependency := defineDependency host.defineKind args (state.locals.declared args.name)
    (args.array.elim [] fun list => boundNames list.1)
  refine ⟨(), after.record dependency, _, ?_, trivial, ?_, .define hcallee hargs htold htold'⟩
  · rw [handleDefine_eq, WalkM.runFrom_bind_of_ok hdeclare, WalkM.runFrom_bind_of_ok hlist,
      WalkM.runFrom_bind_of_ok hbody, WalkM.runFrom_record]
  · have hstart : state.Noted m [] declared := .nil rfl rfl rfl rfl
    have hlast : after.Noted m [.said (.define call args) state.locals state.inTry]
        (after.record dependency) := by
      refine .recorded ?_ rfl rfl rfl rfl
      rw [Note.dependencies, Entry.dependencies, ← tells.kind]
      rfl
    exact ((hstart.trans hnoted).trans hnoted').trans hlast

theorem tells_handleRequire {list : Argument call.args} {callbacks : List (Argument call.args)}
    (hcallee : call.callee = "require")
    (hargs : RequireArgs.ofArgs? call.args = some (.list list callbacks)) :
    (handleRequire host list callbacks).Tells m (Told (.expr call.toExpr)) fun _ => True := by
  rw [handleRequire, WalkM.discard_eq]
  have hlist : (processArray host list (emptySlots list.1) none >>= fun _ => pure ()).Tells m
      (Told (.list (some list.1) none)) fun _ => True :=
    (tells_processArray tells list none).bind_silence fun _ _ => .pure trivial
  refine (hlist.bind fun _ _ => tells_forM_walkArgument tells callbacks).mono ?_
  rintro inTry locals notes after ⟨before, behind, mid, rfl, htold, htold'⟩
  exact .require hcallee hargs htold htold'

theorem tells_callDefine (hcallee : call.callee = "define")
    (hclaimed : isClaimed call.callee call.args = true) :
    (callDefine call host).Tells m (Told (.expr call.toExpr)) fun verdict => verdict = .claim := by
  rw [isClaimed, if_pos hcallee] at hclaimed
  obtain ⟨args, hargs⟩ := Option.isSome_iff_exists.mp hclaimed
  rw [callDefine_of_some hargs]
  exact (tells_handleDefine tells hcallee hargs).bind_silence fun _ _ => .pure rfl

theorem tells_callRequire (hcallee : call.callee = "require")
    (hclaimed : isClaimed call.callee call.args = true) :
    (callRequire call host).Tells m (Told (.expr call.toExpr)) fun verdict => verdict = .claim := by
  have hdefine : call.callee ≠ "define" := by
    rw [hcallee]
    decide
  rw [isClaimed, if_neg hdefine, if_pos hcallee] at hclaimed
  obtain ⟨args, hargs⟩ := Option.isSome_iff_exists.mp hclaimed
  cases args with
  | now id =>
    intro state _
    rw [callRequire_of_now hargs]
    exact ⟨.claim, state.record (.require id), _, rfl, rfl, .recorded rfl rfl rfl rfl rfl,
      .need hcallee hargs⟩
  | list list callbacks =>
    rw [callRequire_of_list hargs]
    exact (tells_handleRequire tells hcallee hargs).bind_silence fun _ _ => .pure rfl

end Handler

end Amd

namespace AmdPlugin

open Amd HookTable

variable {parts : List AmdPlugin} {m : Manner}

/-! ### Offers of calls -/

section Offer

variable {call : Call} {walk : Walker call}

/-- The manner of a table in a file. -/
def manner (parts : List AmdPlugin) (kind : DefineKind) (identity : ModuleIdentity) : Manner :=
  ⟨identity, rendering parts identity, kind⟩

variable {kind : DefineKind} {identity : ModuleIdentity}

theorem noted_mark (loader : String) (id : UInt32) (state : FileState) :
    ∃ notes, (notes = [] ∨ notes = [.script loader]) ∧ state.Noted m notes (mark loader id state) ∧
      (mark loader id state).locals = state.locals := by
  unfold mark Dojo.injectLoader
  cases hinjected : state.loaderInjected with
  | true => exact ⟨[], .inl rfl, .nil rfl rfl rfl rfl, rfl⟩
  | false => exact ⟨[.script loader], .inr rfl, .recorded rfl rfl rfl rfl rfl, rfl⟩

/-- An offer of a `define` call tells what the handler tells of it, and the loader's script. -/
theorem tells_callDefine_table {tells : Telling} {post : Verdict → Prop}
    (hparts : .handler ∈ parts)
    (hscript : ∀ {loader inTry locals notes after}, tells inTry locals notes after →
      tells inTry locals (.script loader :: notes) after)
    (h : (handled (table parts kind) call walk).Tells m tells post) :
    ((table parts kind).callDefine call walk).Tells m tells post := by
  intro state hidentity
  rw [runFrom_callDefine_table hparts]
  cases parts.findSome? loader? with
  | none => exact h state hidentity
  | some loader =>
    cases hmem : state.processing.contains call.id with
    | true => exact h state hidentity
    | false =>
      obtain ⟨marks, hmarks, hmarked, hlocals⟩ := @noted_mark m loader call.id state
      obtain ⟨verdict, after, notes, hrun, hverdict, hnoted, htold⟩ :=
        h (mark loader call.id state) (hmarked.identity.trans hidentity)
      rw [hmarked.inTry, hlocals] at htold
      refine ⟨verdict, after.leave call.id, marks ++ notes, ?_, hverdict,
        (hmarked.trans hnoted).leave call.id, ?_⟩
      · simp only [Bool.false_eq_true, if_false]
        rw [hrun]
      · rcases hmarks with rfl | rfl
        · exact htold
        · exact hscript htold

/-- Nothing but the loader's script is noted, and only of a `define` call. -/
def scripts (call : Call) : Telling := fun _ locals notes after =>
  (∀ note ∈ notes, call.callee = "define" ∧ ∃ loader, note = .script loader) ∧ after = locals

theorem told_scripts {inTry : Bool} {locals after : LocalModules} {notes notes' : List Note}
    (hnotes : ∀ note ∈ notes, call.callee = "define" ∧ ∃ loader, note = .script loader)
    (h : Told (.expr call.toExpr) inTry locals notes' after) :
    Told (.expr call.toExpr) inTry locals (notes ++ notes') after := by
  induction notes with
  | nil => exact h
  | cons note notes ih =>
    obtain ⟨⟨hcallee, loader, rfl⟩, hrest⟩ := List.forall_mem_cons.mp hnotes
    exact .script loader hcallee (ih hrest)

theorem hostTells_table (hparts : .handler ∈ parts)
    (hwalk : ∀ e h, (walk e h).Tells (manner parts kind identity) (Told (.expr e)) fun _ => True) :
    HostTells (manner parts kind identity) ((table parts kind).host call walk (pure .pass)) where
  walk := hwalk
  kind := rfl
  answers := ⟨rendering parts, rfl, answers_rendering hparts⟩

theorem tells_offer_claimed (hparts : .handler ∈ parts)
    (hwalk : ∀ e h, (walk e h).Tells (manner parts kind identity) (Told (.expr e)) fun _ => True)
    (hclaimed : isClaimed call.callee call.args = true) :
    ((table parts kind).offer call walk).Tells (manner parts kind identity)
      (Told (.expr call.toExpr)) fun verdict => verdict = .claim := by
  have hhost : HostTells (manner parts kind identity)
      ((table parts kind).host call walk (pure .pass)) := hostTells_table hparts hwalk
  rw [offer]
  by_cases hdefine : call.callee = "define"
  · rw [if_pos hdefine]
    refine tells_callDefine_table hparts (.script _ hdefine) ?_
    exact tells_callDefine hhost hdefine hclaimed
  · rw [if_neg hdefine]
    by_cases hrequire : call.callee = "require"
    · rw [if_pos hrequire, callRequire_table hparts]
      exact tells_callRequire hhost hrequire hclaimed
    · rw [isClaimed, if_neg hdefine, if_neg hrequire] at hclaimed
      exact absurd hclaimed Bool.false_ne_true

/-- An offer of a call that is not claimed has no trace but the loader's script. -/
theorem tells_offer_unclaimed (hparts : .handler ∈ parts)
    (hclaimed : isClaimed call.callee call.args = false) :
    ((table parts kind).offer call walk).Tells m (scripts call) fun verdict => verdict = .pass := by
  have hpass : (pure .pass : WalkM Verdict).Tells m (scripts call) fun verdict => verdict = .pass :=
    .pure_of rfl ⟨fun note hnote => absurd hnote List.not_mem_nil, rfl⟩
  rw [offer]
  by_cases hdefine : call.callee = "define"
  · rw [isClaimed, if_pos hdefine, Option.isSome_eq_false_iff, Option.isNone_iff_eq_none]
      at hclaimed
    rw [if_pos hdefine]
    refine tells_callDefine_table hparts ?_ ?_
    · rintro loader inTry locals notes after ⟨hnotes, rfl⟩
      exact ⟨List.forall_mem_cons.mpr ⟨⟨hdefine, loader, rfl⟩, hnotes⟩, rfl⟩
    · rw [handled_of_none hclaimed]
      exact hpass
  · rw [if_neg hdefine]
    by_cases hrequire : call.callee = "require"
    · rw [isClaimed, if_neg hdefine, if_pos hrequire, Option.isSome_eq_false_iff,
        Option.isNone_iff_eq_none] at hclaimed
      rw [if_pos hrequire, callRequire_table hparts, callRequire_of_none hclaimed]
      exact hpass
    · rw [if_neg hrequire]
      exact hpass

end Offer

/-! ### Walks -/

section Walk

variable {kind : DefineKind} {identity : ModuleIdentity}

mutual

theorem tells_walkNodes (hparts : .handler ∈ parts) (nodes : List Node) :
    ((table parts kind).walkNodes nodes).Tells (manner parts kind identity) (Told (.nodes nodes))
      fun _ => True := by
  match nodes with
  | [] =>
    rw [walkNodes]
    exact .pure_of trivial .nodes_nil
  | .expr e :: rest =>
    rw [walkNodes]
    refine ((tells_walkExpr hparts e).bind fun _ _ => tells_walkNodes hparts rest).mono ?_
    rintro inTry locals notes after ⟨before, behind, mid, rfl, he, hrest⟩
    exact .nodes_expr he hrest
  | .tryCatch block onError :: rest =>
    rw [walkNodes]
    refine (((tells_walkNodes hparts block).withTry true).bind fun _ _ =>
      (tells_walkNodes hparts onError).bind fun _ _ => tells_walkNodes hparts rest).mono ?_
    rintro inTry locals notes after
      ⟨before, _, mid, rfl, hblock, ⟨between, behind, mid', rfl, honError, hrest⟩⟩
    exact .nodes_try hblock honError hrest
termination_by sizeOf nodes

theorem tells_walkExpr (hparts : .handler ∈ parts) (e : Expr) :
    ((table parts kind).walkExpr e).Tells (manner parts kind identity) (Told (.expr e))
      fun _ => True := by
  match e with
  | .call id span callee args =>
    have hwalk : ∀ e, sizeOf e < sizeOf args →
        ((table parts kind).walkExpr e).Tells (manner parts kind identity) (Told (.expr e))
          fun _ => True := fun e h => tells_walkExpr hparts e
    have hargs := tells_walkExprs hparts args
    let call : Call := ⟨id, span, callee, args⟩
    rw [walkExpr]
    cases hclaimed : isClaimed callee args with
    | true =>
      have hoffer : ((table parts kind).offer call fun e _ => (table parts kind).walkExpr e).Tells
          (manner parts kind identity) (Told (.expr call.toExpr)) fun verdict => verdict = .claim :=
        tells_offer_claimed hparts hwalk hclaimed
      refine hoffer.bind_silence fun verdict hverdict => ?_
      subst hverdict
      exact .pure trivial
    | false =>
      have hoffer : ((table parts kind).offer call fun e _ => (table parts kind).walkExpr e).Tells
          (manner parts kind identity) (scripts call) fun verdict => verdict = .pass :=
        tells_offer_unclaimed hparts hclaimed
      have hrest : ∀ verdict : Verdict, verdict = .pass →
          (match verdict with
            | .claim => pure ()
            | .pass => (table parts kind).walkExprs args : WalkM Unit).Tells
              (manner parts kind identity) (Told (.exprs args)) fun _ => True := by
        rintro verdict rfl
        exact hargs
      refine (hoffer.bind hrest).mono ?_
      rintro inTry locals notes after ⟨before, behind, mid, rfl, ⟨hscripts, rfl⟩, hbehind⟩
      exact told_scripts hscripts (.unclaimed hclaimed hbehind)
  | .function span params body =>
    rw [walkExpr]
    exact ((tells_walkNodes hparts body).withTry false).mono fun htold => .function htold
  | .array span elements =>
    rw [walkExpr]
    exact (tells_walkExprs hparts elements).mono fun htold => .array htold
  | .str .. | .object .. | .ident .. | .other .. =>
    rw [walkExpr_of_isAtom rfl]
    exact .pure_of trivial (.atom rfl)
termination_by sizeOf e

theorem tells_walkExprs (hparts : .handler ∈ parts) (es : List Expr) :
    ((table parts kind).walkExprs es).Tells (manner parts kind identity) (Told (.exprs es))
      fun _ => True := by
  match es with
  | [] =>
    rw [walkExprs]
    exact .pure_of trivial .exprs_nil
  | e :: rest =>
    rw [walkExprs]
    refine ((tells_walkExpr hparts e).bind fun _ _ => tells_walkExprs hparts rest).mono ?_
    rintro inTry locals notes after ⟨before, behind, mid, rfl, he, hrest⟩
    exact .exprs_cons he hrest
termination_by sizeOf es

end

theorem exists_told_walk (hparts : .handler ∈ parts) (kind : DefineKind)
    (identity : ModuleIdentity) (program : List Node) :
    ∃ after notes, FileState.walk (table parts kind) program { identity } = (.ok (), after) ∧
      Told (.nodes program) false {} notes after.locals ∧
      after.dependencies = notes.flatMap (Note.dependencies (manner parts kind identity)) ∧
      after.warnings = notes.flatMap (Note.warnings (manner parts kind identity)) := by
  have hwalk : ((table parts kind).walkNodes program).Tells (manner parts kind identity) _ _ :=
    tells_walkNodes hparts program
  obtain ⟨_, after, notes, hrun, -, hnoted, htold⟩ := hwalk { identity } rfl
  exact ⟨after, notes, hrun, htold, hnoted.dependencies, hnoted.warnings⟩

end Walk

end AmdPlugin
end AmdBundle
