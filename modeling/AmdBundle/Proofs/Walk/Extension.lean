import AmdBundle.Proofs.Walk.AmdTable
import AmdBundle.Proofs.Walk.Simulation
import AmdBundle.Proofs.Walk.Visited
import AmdBundle.Walk.Traverse

/-!
# AmdBundle.Proofs.Walk.Extension — the loader's plugins only extend what the host does

A walk under a table of AMD plugins and one under the host's table alone, side by side
(`walk_extends`): both succeed, with equal warnings and local modules, and the dependencies differ
in rendering, in what carries out `define` calls, and in the loader's script, which is there exactly
if the table has an interceptor and the walk comes to a call of `define`.

The proof follows the walk: what the handler does with a call under two hosts that simulate each
other (`Amd.HostSimulates`), then the offers of calls, then statements and expressions by mutual
recursion.
-/

namespace AmdBundle

namespace Amd

variable {loader? : Option String} {call : Call} {full plain : CallHost call}

/-- Two hosts of a call: the second renders as the host does, and what the first walks simulates
what the second walks. -/
structure HostSimulates (loader? : Option String) (full plain : CallHost call) : Prop where
  walk : ∀ e h, Simulates loader? (comesToDefine e) (fun _ => True) (full.walk e h)
    (plain.walk e h)
  answers : ∃ render, full.askArray = claimArray render ∧ full.askItem = claimItem render
  askArray : plain.askArray = claimArray fun _ => hostRender
  askItem : plain.askItem = claimItem fun _ => hostRender
  defineKind : plain.defineKind = .standard

/-! ### The steps of the handler -/

theorem simulates_warnAt (what : String) (place : UInt32) (problem : String) :
    Simulates loader? false (fun _ => True) (warnAt what place problem)
      (warnAt what place problem) := by
  refine Simulates.of_update (fun {full plain} h => ?_) (fun _ => rfl) fun _ => rfl
  refine ⟨h.identity, h.locals, ?_, h.inTry, h.inside, h.dependencies⟩
  simp only [FileState.warn]
  rw [h.warnings, h.identity]

theorem simulates_declare (name : Option String) :
    Simulates loader? false (fun _ => True) (declare name) (declare name) := by
  intro fullState plainState h
  cases name with
  | none => exact ⟨none, fullState, plainState, rfl, rfl, trivial, h, rfl, by simp⟩
  | some name =>
    refine ⟨some (fullState.locals.add name).1,
      { fullState with locals := (fullState.locals.add name).2 },
      { plainState with locals := (plainState.locals.add name).2 }, rfl, ?_, trivial, ?_, rfl,
      by simp⟩
    · rw [h.locals]
      rfl
    · refine ⟨h.identity, ?_, h.warnings, h.inTry, h.inside, h.dependencies⟩
      simp only
      rw [h.locals]

theorem simulates_claimArray {param : Expr} {ids : List String}
    (hparam : param.evaluate = .constArray ids) (render : ModuleIdentity → Render) (slots : Slots)
    (named : Option String) :
    Simulates loader? false (fun answer => answer.1 = .claim)
      (claimArray render param slots named)
      (claimArray (fun _ => hostRender) param slots named) := by
  intro fullState plainState h
  have hslots : (fullState.addArray ids param.span slots named (render fullState.identity)).2 =
      (plainState.addArray ids param.span slots named hostRender).2 := by
    rw [FileState.snd_addArray_eq, FileState.snd_addArray, FileState.snd_addArray]
    refine congrArg (FileState.bindPseudo · slots) (congrArg (List.map · ids) (funext fun id => ?_))
    exact FileState.classify_congr h.identity h.locals
  refine ⟨_, _, (plainState.addArray ids param.span slots named hostRender).1,
    runFrom_claimArray hparam slots fullState, ?_, rfl, ?_, ?_, ?_⟩
  · rw [runFrom_claimArray hparam, hslots]
  · rw [FileState.fst_addArray, FileState.fst_addArray]
    refine ⟨h.identity, h.locals, h.warnings, h.inTry, h.inside, h.dependencies.append ?_⟩
    rw [FileState.map_toHost_listDependencies]
    exact FileState.listDependencies_congr h.identity h.locals h.inTry
  · rw [FileState.fst_addArray]
  · rw [FileState.fst_addArray]
    simp

theorem simulates_claimItem {param : Expr} {id : String} (hparam : param.evaluate = .string id)
    (render : ModuleIdentity → Render) (named : Option String) :
    Simulates loader? false (fun verdict => verdict = .claim) (claimItem render param named)
      (claimItem (fun _ => hostRender) param named) := by
  intro fullState plainState h
  refine ⟨.claim, _, _, runFrom_claimItem hparam fullState, runFrom_claimItem hparam plainState,
    rfl, ?_, rfl, by simp [FileState.addItem, FileState.record]⟩
  refine ⟨h.identity, h.locals, h.warnings, h.inTry, h.inside, h.dependencies.append ?_⟩
  simp only [List.map_cons, List.map_nil, Dependency.toHost, FileState.toHost_classify]
  rw [FileState.classify_congr h.identity h.locals, h.inTry]

/-! ### What the handler does with a call -/

section Handler

variable (hosts : HostSimulates loader? full plain)

include hosts

theorem simulates_walkArgument (arg : Argument call.args) :
    Simulates loader? (comesToDefine arg.1) (fun _ => True) (walkArgument full arg)
      (walkArgument plain arg) :=
  hosts.walk arg.1 _

theorem simulates_processElement (named : Option String) (element : Expr)
    (h : sizeOf element < sizeOf call.args) :
    Simulates loader? (comesToDefine element) (fun _ => True)
      (processElement full named element h) (processElement plain named element h) := by
  obtain ⟨render, -, hask⟩ := hosts.answers
  rw [processElement, processElement, hask, hosts.askItem]
  cases hstring : element.evaluate.isString with
  | true =>
    obtain ⟨id, hid⟩ := exists_of_isString hstring
    rw [comesToDefine_of_literal (literal?_of_string hid)]
    refine (simulates_claimItem hid render named).bind_still fun verdict hclaim => ?_
    subst hclaim
    exact Simulates.pure trivial
  | false =>
    rw [claimItem_of_not hstring, claimItem_of_not hstring, pure_bind, pure_bind]
    exact (simulates_warnAt _ _ _).bind fun _ _ => hosts.walk element h

theorem simulates_processArray (list : Argument call.args) (slots : Slots)
    (named : Option String) :
    Simulates loader? (list.1.isArray && comesToDefine list.1) (fun _ => True)
      (processArray full list slots named) (processArray plain list slots named) := by
  obtain ⟨render, hask, -⟩ := hosts.answers
  rw [processArray, processArray, hask, hosts.askArray]
  cases hconst : list.1.evaluate.isConstArray with
  | true =>
    obtain ⟨ids, hids⟩ := exists_of_isConstArray hconst
    rw [comesToDefine_of_constArray hids, Bool.and_false]
    refine (simulates_claimArray hids render slots named).bind_still fun answer hclaim => ?_
    obtain ⟨verdict, slots⟩ := answer
    obtain rfl : verdict = .claim := hclaim
    exact Simulates.pure trivial
  | false =>
    rw [claimArray_of_not hconst, claimArray_of_not hconst, pure_bind, pure_bind]
    obtain ⟨e, he⟩ := list
    cases e with
    | array span elements =>
      show Simulates loader? (comesToDefine (.array span elements)) _ _ _
      rw [comesToDefine_array]
      refine Simulates.bind_still (Simulates.forM fun element _ => ?_) fun _ _ =>
        Simulates.pure trivial
      exact simulates_processElement hosts named element.1 _
    | _ => exact (simulates_warnAt _ _ _).bind_still fun _ _ => Simulates.pure trivial

theorem simulates_forM_walkArgument (arguments : List (Argument call.args)) :
    Simulates loader? (arguments.any fun arg => comesToDefine arg.1) (fun _ => True)
      (arguments.forM (walkArgument full)) (arguments.forM (walkArgument plain)) :=
  Simulates.forM fun arg _ => simulates_walkArgument hosts arg

theorem simulates_slots {β : Type} {next : Bool} {goal : β → Prop} {k k' : Slots → WalkM β}
    (list : Option (Argument call.args)) (named : Option String)
    (hnext : ∀ slots, Simulates loader? next goal (k slots) (k' slots)) :
    Simulates loader? ((list.toList.any fun list => list.1.isArray && comesToDefine list.1) || next)
      goal
      (match list with
        | some list => processArray full list (emptySlots list.1) named >>= k
        | none => pure [] >>= k)
      (match list with
        | some list => processArray plain list (emptySlots list.1) named >>= k'
        | none => pure [] >>= k') := by
  cases list with
  | none => exact (Simulates.pure trivial).bind fun slots (_ : True) => hnext slots
  | some list =>
    show Simulates loader?
      (([list].any fun list => list.1.isArray && comesToDefine list.1) || next) _
      (processArray full list (emptySlots list.1) named >>= k)
      (processArray plain list (emptySlots list.1) named >>= k')
    rw [List.any_cons, List.any_nil, Bool.or_false]
    exact (simulates_processArray hosts list _ named).bind fun slots _ => hnext slots

theorem simulates_body {β : Type} {goal : β → Prop} {k k' : Unit → WalkM β}
    (body : Option (Argument call.args))
    (hnext : Simulates loader? false goal (k ()) (k' ())) :
    Simulates loader? (body.toList.any fun body => comesToDefine body.1) goal
      (match body with
        | some body => walkArgument full body >>= k
        | none => k ())
      (match body with
        | some body => walkArgument plain body >>= k'
        | none => k' ()) := by
  cases body with
  | none => exact hnext
  | some body =>
    show Simulates loader? ([body].any fun body => comesToDefine body.1) goal
      (walkArgument full body >>= k) (walkArgument plain body >>= k')
    rw [List.any_cons, List.any_nil, Bool.or_false]
    exact (simulates_walkArgument hosts body).bind_still fun _ _ => hnext

theorem simulates_recordDefine (parts : DefineParts) (loc : Span) :
    Simulates loader? false (fun _ => True)
      (WalkM.record (.define ⟨full.defineKind, parts, loc⟩))
      (WalkM.record (.define ⟨plain.defineKind, parts, loc⟩)) := by
  rw [hosts.defineKind]
  exact Simulates.record (.define ⟨full.defineKind, parts, loc⟩)

theorem simulates_handleDefine (args : DefineArgs call.args) :
    Simulates loader?
      ((args.array.toList.any fun list => list.1.isArray && comesToDefine list.1) ||
        args.body.toList.any fun body => comesToDefine body.1)
      (fun _ => True) (handleDefine full args) (handleDefine plain args) := by
  rw [handleDefine, handleDefine]
  refine (simulates_declare args.name).bind fun localModule _ => ?_
  refine simulates_slots hosts args.array args.name fun slots => ?_
  exact simulates_body hosts args.body (simulates_recordDefine hosts _ call.span)

theorem simulates_handleRequire (list : Argument call.args)
    (callbacks : List (Argument call.args)) :
    Simulates loader?
      ((list.1.isArray && comesToDefine list.1) ||
        callbacks.any fun callback => comesToDefine callback.1)
      (fun _ => True) (handleRequire full list callbacks) (handleRequire plain list callbacks) := by
  rw [handleRequire, handleRequire, WalkM.discard_eq, WalkM.discard_eq]
  have hlist : Simulates loader? (list.1.isArray && comesToDefine list.1) (fun _ => True)
      (processArray full list (emptySlots list.1) none >>= fun _ => pure ())
      (processArray plain list (emptySlots list.1) none >>= fun _ => pure ()) :=
    (simulates_processArray hosts list _ none).bind_still fun _ _ => Simulates.pure trivial
  exact hlist.bind fun _ _ => simulates_forM_walkArgument hosts callbacks

theorem simulates_callDefine (hcallee : call.callee = "define") :
    Simulates loader?
      ((DefineArgs.ofArgs? call.args).isSome &&
        (walkedArgs call.callee call.args).any fun arg => comesToDefine arg.1)
      (fun verdict => verdict = if (DefineArgs.ofArgs? call.args).isSome then .claim else .pass)
      (callDefine call full) (callDefine call plain) := by
  cases hargs : DefineArgs.ofArgs? call.args with
  | none =>
    rw [callDefine_of_none hargs, callDefine_of_none hargs]
    exact Simulates.pure rfl
  | some args =>
    rw [callDefine_of_some hargs, callDefine_of_some hargs, walkedArgs, if_pos hcallee, hargs]
    show Simulates loader? (((args.array.toList.filter (·.1.isArray)) ++ args.body.toList).any
      fun arg => comesToDefine arg.1) _ _ _
    rw [List.any_append, List.any_filter]
    exact (simulates_handleDefine hosts args).bind_still fun _ _ => Simulates.pure rfl

theorem simulates_callRequire (hcallee : call.callee = "require") :
    Simulates loader?
      ((RequireArgs.ofArgs? call.args).isSome &&
        (walkedArgs call.callee call.args).any fun arg => comesToDefine arg.1)
      (fun verdict => verdict = if (RequireArgs.ofArgs? call.args).isSome then .claim else .pass)
      (callRequire call full) (callRequire call plain) := by
  cases hargs : RequireArgs.ofArgs? call.args with
  | none =>
    rw [callRequire_of_none hargs, callRequire_of_none hargs]
    exact Simulates.pure rfl
  | some args =>
    rw [walkedArgs, hcallee, if_neg (by decide), if_pos rfl, hargs]
    cases args with
    | now id =>
      rw [callRequire_of_now hargs, callRequire_of_now hargs]
      exact (Simulates.record (.require id)).bind_still fun _ _ => Simulates.pure rfl
    | list list callbacks =>
      rw [callRequire_of_list hargs, callRequire_of_list hargs]
      show Simulates loader? (([list].filter (·.1.isArray) ++ callbacks).any
        fun arg => comesToDefine arg.1) _ _ _
      rw [List.any_append, List.any_filter, List.any_cons, List.any_nil, Bool.or_false]
      exact (simulates_handleRequire hosts list callbacks).bind_still fun _ _ => Simulates.pure rfl

end Handler

end Amd

namespace AmdPlugin

open Amd HookTable

/-! ### Offers of calls -/

section Offer

variable {parts : List AmdPlugin} {kind : DefineKind} {call : Call} {walk walk' : Walker call}

theorem standard_eq : HookTable.standard = table [.handler] .standard := rfl

theorem matches_mark {loader : String} {full plain : FileState}
    (h : Matches (some loader) full plain) (id : UInt32) :
    Matches (some loader) (mark loader id full) plain := by
  unfold mark Dojo.injectLoader
  have hdependencies := h.dependencies
  cases hinjected : full.loaderInjected with
  | true =>
    refine ⟨h.identity, h.locals, h.warnings, h.inTry, fun _ _ => rfl, ?_⟩
    rw [hinjected] at hdependencies
    exact hdependencies
  | false =>
    refine ⟨h.identity, h.locals, h.warnings, h.inTry, fun _ _ => rfl, ?_⟩
    rw [hinjected] at hdependencies
    exact hdependencies.require loader

theorem matches_leave {loader? : Option String} {full plain : FileState}
    (h : Matches loader? full plain) (hinjected : full.loaderInjected = true) (id : UInt32) :
    Matches loader? (full.leave id) plain :=
  ⟨h.identity, h.locals, h.warnings, h.inTry, fun _ _ => hinjected, h.dependencies⟩

/-- An offer of a `define` call, from what the handlers do with it.  The first interceptor sees to
the loader's script before; one that is asked about a call inside another of the same id does
nothing, and the script is there. -/
theorem simulates_callDefine_table {fires : Bool} {post : Verdict → Prop}
    (hparts : .handler ∈ parts)
    (h : Simulates (parts.findSome? loader?) fires post (handled (table parts kind) call walk)
      (handled (table [.handler] .standard) call walk')) :
    Simulates (parts.findSome? loader?) true post ((table parts kind).callDefine call walk)
      ((table [.handler] .standard).callDefine call walk') := by
  intro fullState plainState hmatch
  rw [runFrom_callDefine_table hparts, runFrom_callDefine_table List.mem_cons_self]
  cases hloader : parts.findSome? loader? with
  | none =>
    rw [hloader] at h hmatch
    obtain ⟨a, fullAfter, plainAfter, hfull, hplain, ha, hafter, hprocessing, hinjected⟩ :=
      h fullState plainState hmatch
    exact ⟨a, fullAfter, plainAfter, hfull, hplain, ha, hafter, hprocessing,
      by simpa using hinjected⟩
  | some loader =>
    rw [hloader] at h hmatch
    -- a call inside another one of the same id is in a file that has the script already
    cases hmem : fullState.processing.contains call.id with
    | true =>
      obtain ⟨a, fullAfter, plainAfter, hfull, hplain, ha, hafter, hprocessing, hinjected⟩ :=
        h fullState plainState hmatch
      have hne : fullState.processing ≠ [] := by
        intro hnil
        simp [hnil] at hmem
      refine ⟨a, fullAfter, plainAfter, hfull, hplain, ha, hafter, hprocessing, ?_⟩
      simp [hinjected, hmatch.inside rfl hne]
    | false =>
      -- the first interceptor marks the file before the handlers are asked
      obtain ⟨a, fullAfter, plainAfter, hfull, hplain, ha, hafter, hprocessing, hinjected⟩ :=
        h _ plainState (matches_mark hmatch call.id)
      rw [loaderInjected_mark, Bool.true_or] at hinjected
      refine ⟨a, fullAfter.leave call.id, plainAfter, ?_, hplain, ha,
        matches_leave hafter hinjected call.id, ?_, ?_⟩
      · show (((handled (table parts kind) call walk).runFrom (mark loader call.id fullState)).1,
          ((handled (table parts kind) call walk).runFrom
            (mark loader call.id fullState)).2.leave call.id) = _
        rw [hfull]
      · rw [processing_mark] at hprocessing
        simp [FileState.leave, hprocessing]
      · simp [FileState.leave, hinjected]

/-- The two hosts of a call, if what is walked under the one simulates what is walked under the
other. -/
theorem hostSimulates_table (hparts : .handler ∈ parts)
    (hwalk : ∀ e h, Simulates (parts.findSome? loader?) (comesToDefine e) (fun _ => True)
      (walk e h) (walk' e h)) :
    HostSimulates (parts.findSome? loader?) ((table parts kind).host call walk (pure .pass))
      ((table [.handler] .standard).host call walk' (pure .pass)) where
  walk := hwalk
  answers := answers_table hparts
  askArray := by
    funext param slots named
    show (table [.handler] .standard).amdArray call walk' param slots named = _
    rw [amdArray, plugins_table]
    exact askWithSlots_map slots
  askItem := by
    funext param named
    show (table [.handler] .standard).amdItem call walk' param named = _
    rw [amdItem, plugins_table]
    exact ask_amdItem_map
  defineKind := rfl

theorem simulates_offer (hparts : .handler ∈ parts)
    (hwalk : ∀ e h, Simulates (parts.findSome? loader?) (comesToDefine e) (fun _ => True)
      (walk e h) (walk' e h)) :
    Simulates (parts.findSome? loader?)
      (call.callee == "define" ||
        isClaimed call.callee call.args &&
          (walkedArgs call.callee call.args).any fun arg => comesToDefine arg.1)
      (fun verdict => verdict = if isClaimed call.callee call.args then .claim else .pass)
      ((table parts kind).offer call walk) ((table [.handler] .standard).offer call walk') := by
  have hosts : HostSimulates (parts.findSome? loader?)
      ((table parts kind).host call walk (pure .pass))
      ((table [.handler] .standard).host call walk' (pure .pass)) :=
    hostSimulates_table hparts hwalk
  rw [offer, offer]
  by_cases hdefine : call.callee = "define"
  · rw [if_pos hdefine, if_pos hdefine]
    have hfires : (call.callee == "define") = true := beq_iff_eq.mpr hdefine
    have hclaimed : isClaimed call.callee call.args = (DefineArgs.ofArgs? call.args).isSome := by
      rw [isClaimed, if_pos hdefine]
    rw [hfires, Bool.true_or, hclaimed]
    exact simulates_callDefine_table hparts (simulates_callDefine hosts hdefine)
  · have hfires : (call.callee == "define") = false := beq_eq_false_iff_ne.mpr hdefine
    rw [if_neg hdefine, if_neg hdefine, hfires, Bool.false_or]
    by_cases hrequire : call.callee = "require"
    · have hclaimed : isClaimed call.callee call.args = (RequireArgs.ofArgs? call.args).isSome := by
        rw [isClaimed, if_neg hdefine, if_pos hrequire]
      rw [if_pos hrequire, if_pos hrequire, callRequire_table hparts,
        callRequire_table List.mem_cons_self, hclaimed]
      exact simulates_callRequire hosts hrequire
    · have hclaimed : isClaimed call.callee call.args = false := by
        rw [isClaimed, if_neg hdefine, if_neg hrequire]
      rw [if_neg hrequire, if_neg hrequire, hclaimed, Bool.false_and]
      exact Simulates.pure rfl

end Offer

/-! ### Walks -/

section Walk

variable {parts : List AmdPlugin} {kind : DefineKind}

mutual

theorem simulates_walkNodes (hparts : .handler ∈ parts) (nodes : List Node) :
    Simulates (parts.findSome? loader?) ((visitedNodes nodes).any Call.isDefine) (fun _ => True)
      ((table parts kind).walkNodes nodes) ((table [.handler] .standard).walkNodes nodes) := by
  match nodes with
  | [] =>
    rw [walkNodes, walkNodes, visitedNodes]
    exact Simulates.pure trivial
  | .expr e :: rest =>
    rw [walkNodes, walkNodes, visitedNodes, List.any_append]
    exact (simulates_walkExpr hparts e).bind fun _ _ => simulates_walkNodes hparts rest
  | .tryCatch block onError :: rest =>
    rw [walkNodes, walkNodes, visitedNodes, List.any_append, List.any_append, Bool.or_assoc]
    exact ((simulates_walkNodes hparts block).withTry true).bind fun _ _ =>
      (simulates_walkNodes hparts onError).bind fun _ _ => simulates_walkNodes hparts rest
termination_by sizeOf nodes

theorem simulates_walkExpr (hparts : .handler ∈ parts) (e : Expr) :
    Simulates (parts.findSome? loader?) (comesToDefine e) (fun _ => True)
      ((table parts kind).walkExpr e) ((table [.handler] .standard).walkExpr e) := by
  match e with
  | .call id span callee args =>
    have hwalk : ∀ e, sizeOf e < sizeOf args →
        Simulates (parts.findSome? loader?) (comesToDefine e) (fun _ => True)
          ((table parts kind).walkExpr e) ((table [.handler] .standard).walkExpr e) :=
      fun e h => simulates_walkExpr hparts e
    have hargs := simulates_walkExprs hparts args
    have hoffer : Simulates (parts.findSome? loader?)
        (callee == "define" ||
          isClaimed callee args && (walkedArgs callee args).any fun arg => comesToDefine arg.1)
        (fun verdict => verdict = if isClaimed callee args then .claim else .pass)
        ((table parts kind).offer ⟨id, span, callee, args⟩ fun e _ => (table parts kind).walkExpr e)
        ((table [.handler] .standard).offer ⟨id, span, callee, args⟩ fun e _ =>
          (table [.handler] .standard).walkExpr e) :=
      simulates_offer hparts hwalk
    rw [walkExpr, walkExpr, comesToDefine_call]
    cases hclaimed : isClaimed callee args with
    | true =>
      rw [hclaimed, Bool.true_and] at hoffer
      refine hoffer.bind_still fun verdict hverdict => ?_
      obtain rfl : verdict = .claim := hverdict
      exact Simulates.pure trivial
    | false =>
      rw [hclaimed, Bool.false_and, Bool.or_false] at hoffer
      rw [walkedArgs_of_not_claimed hclaimed, any_attach_comesToDefine]
      refine hoffer.bind fun verdict hverdict => ?_
      obtain rfl : verdict = .pass := hverdict
      exact hargs
  | .function span params body =>
    rw [walkExpr, walkExpr, comesToDefine_function]
    exact (simulates_walkNodes hparts body).withTry false
  | .array span elements =>
    rw [walkExpr, walkExpr, comesToDefine_array, any_attach_comesToDefine]
    exact simulates_walkExprs hparts elements
  | .str .. | .object .. | .ident .. | .other .. =>
    rw [comesToDefine_of_isAtom rfl, walkExpr_of_isAtom rfl, walkExpr_of_isAtom rfl]
    exact Simulates.pure trivial
termination_by sizeOf e

theorem simulates_walkExprs (hparts : .handler ∈ parts) (es : List Expr) :
    Simulates (parts.findSome? loader?) (es.any comesToDefine) (fun _ => True)
      ((table parts kind).walkExprs es) ((table [.handler] .standard).walkExprs es) := by
  match es with
  | [] =>
    rw [walkExprs, walkExprs]
    exact Simulates.pure trivial
  | e :: rest =>
    rw [walkExprs, walkExprs, List.any_cons]
    exact (simulates_walkExpr hparts e).bind fun _ _ => simulates_walkExprs hparts rest
termination_by sizeOf es

end

end Walk

/-! ### Files -/

section File

theorem matches_refl (loader? : Option String) (identity : ModuleIdentity) :
    Matches loader? { identity } { identity } :=
  ⟨rfl, rfl, rfl, rfl, fun _ h => absurd rfl h, rfl⟩

/-- **Extension.**  A walk over a file under a table of AMD plugins with the handler, whatever the
order of adding and whatever carries out `define` calls, and a walk under the host's table both
succeed.  Their warnings and local modules are equal, and so are their dependencies in host form,
once the loader's script is taken out, which is there exactly if the table has an interceptor and
the walk comes to a call of `define`. -/
theorem walk_extends (parts : List AmdPlugin) (kind : DefineKind) (hparts : .handler ∈ parts)
    (identity : ModuleIdentity) (program : List Node) :
    ∃ full plain : FileState,
      FileState.walk (table parts kind) program { identity } = (.ok (), full) ∧
      FileState.walk .standard program { identity } = (.ok (), plain) ∧
      full.warnings = plain.warnings ∧ full.locals = plain.locals ∧
      IsExtension
        (if (visitedNodes program).any Call.isDefine then parts.findSome? loader? else none)
        full.dependencies plain.dependencies := by
  rw [standard_eq]
  obtain ⟨⟨⟩, full, plain, hfull, hplain, -, hmatch, -, hinjected⟩ :=
    simulates_walkNodes hparts program { identity } { identity } (matches_refl _ identity)
  refine ⟨full, plain, hfull, hplain, hmatch.warnings, hmatch.locals, ?_⟩
  have hdependencies := hmatch.dependencies
  rw [hinjected, Bool.false_or] at hdependencies
  cases hdefine : (visitedNodes program).any Call.isDefine with
  | false =>
    rw [hdefine, Bool.false_and] at hdependencies
    exact hdependencies
  | true =>
    rw [hdefine, Bool.true_and] at hdependencies
    cases hloader : parts.findSome? loader? with
    | none =>
      rw [hloader] at hdependencies
      exact hdependencies
    | some loader =>
      rw [hloader] at hdependencies
      exact hdependencies

/-- Two interceptors, and a binder before the handler. -/
def crowdedParts : List AmdPlugin :=
  [.interceptor "loader/first", .bystander "logger" .normal, .handler, .binder "require",
    .interceptor "loader/second"]

/-- A file with a `define` call inside another one of the same id. -/
def nestedDefines : List Node :=
  [.expr <| .call 1 {} "define"
    [.array {} [.str {} "require", .str {} "./a"],
      .function {} ["require", "a"] [.expr <| .call 1 {} "define" [.object {}]]]]

theorem walk_extends_nestedDefines :
    ∃ full plain : FileState,
      FileState.walk (table crowdedParts .loader) nestedDefines
        { identity := ⟨some "m", "/m.js"⟩ } = (.ok (), full) ∧
      FileState.walk .standard nestedDefines { identity := ⟨some "m", "/m.js"⟩ } = (.ok (), plain) ∧
      full.warnings = plain.warnings ∧ full.locals = plain.locals ∧
      IsExtension (some "loader/first") full.dependencies plain.dependencies := by
  have hdefine : (visitedNodes nestedDefines).any Call.isDefine = true := by
    simp [nestedDefines, visitedNodes, visitedExpr, Call.isDefine]
  have hwalk := walk_extends crowdedParts .loader (by decide) ⟨some "m", "/m.js"⟩ nestedDefines
  rw [hdefine, if_pos rfl] at hwalk
  exact hwalk

end File

end AmdPlugin
end AmdBundle
