import AmdBundle.Proofs.Walk.AmdTable
import AmdBundle.Proofs.Walk.Calls
import AmdBundle.Proofs.Walk.Gains
import AmdBundle.Proofs.Walk.Wire

/-!
# AmdBundle.Proofs.Walk.Reading — what a walk under AMD plugins reads and records

A step `Reads` a list of calls and a list of string literals if it comes to exactly these calls, and
what it records refers to some of these literals only, in their order, with the `try` mark that each
of them stands under.  What it comes to is told by a wire: the step fails if the wire is across one
of the calls, and succeeds otherwise.

The relation keeps to the way steps are put together, and the main statement follows the walk: a
walk over a program reads the calls that `visitedNodes` lists and the literals of the program
(`reads_walkNodes`).
-/

namespace AmdBundle

open Amd

/-! ### Steps that read calls and literals -/

section Steps

variable {loader? : Option String} {wire : Call → Bool}

/-- The step comes to exactly the calls, and records references to some of the literals.  If it
succeeds, `post` is known of its value. -/
def WalkM.Reads {α : Type} (loader? : Option String) (wire : Call → Bool) (calls : List Call)
    (uses : Bool → List (String × Bool)) (post : α → Prop) (x : WalkM α) : Prop :=
  ∀ state : FileState,
    if calls.any wire then (x.runFrom state).1 = .error HookTable.wireTouched
    else ∃ a after, x.runFrom state = (.ok a, after) ∧ post a ∧
      Gains loader? calls (uses state.inTry) state after

namespace WalkM.Reads

variable {α β : Type} {calls calls' : List Call} {uses uses' : Bool → List (String × Bool)}
  {post : α → Prop} {x : WalkM α}

theorem of_gains (h : ∀ state, ∃ a after, x.runFrom state = (.ok a, after) ∧ post a ∧
    Gains loader? [] (uses state.inTry) state after) : Reads loader? wire [] uses post x := by
  intro state
  rw [List.any_nil, if_neg Bool.false_ne_true]
  exact h state

theorem of_still (h : ∀ state, ∃ a after, x.runFrom state = (.ok a, after) ∧ post a ∧
    after.inTry = state.inTry ∧ after.loaderInjected = state.loaderInjected ∧
    after.dependencies = state.dependencies) : Reads loader? wire [] (fun _ => []) post x := by
  refine of_gains fun state => ?_
  obtain ⟨a, after, hrun, ha, hinTry, hinjected, hdependencies⟩ := h state
  refine ⟨a, after, hrun, ha, .of_refers hinTry hinjected ?_ refers_nil⟩
  rw [hdependencies, List.append_nil]

theorem pure {a : α} (h : post a) :
    Reads loader? wire [] (fun _ => []) post (Pure.pure a : WalkM α) :=
  of_still fun state => ⟨a, state, rfl, h, rfl, rfl, rfl⟩

theorem pure_eq (a : α) :
    Reads loader? wire [] (fun _ => []) (fun b => b = a) (Pure.pure a : WalkM α) :=
  pure rfl

theorem bind {goal : β → Prop} {k : α → WalkM β} (h : Reads loader? wire calls uses post x)
    (hk : ∀ a, post a → Reads loader? wire calls' uses' goal (k a)) :
    Reads loader? wire (calls ++ calls') (fun inTry => uses inTry ++ uses' inTry) goal
      (x >>= k) := by
  intro state
  have hx := h state
  rw [List.any_append]
  cases hwire : calls.any wire with
  | true =>
    rw [hwire, if_pos rfl] at hx
    rw [Bool.true_or, if_pos rfl, WalkM.runFrom_bind]
    rcases hrun : x.runFrom state with ⟨result, after⟩
    rw [hrun] at hx
    obtain rfl : result = .error HookTable.wireTouched := hx
    rfl
  | false =>
    rw [hwire, if_neg Bool.false_ne_true] at hx
    obtain ⟨a, mid, hrun, ha, hgains⟩ := hx
    have hnext := hk a ha mid
    rw [Bool.false_or, WalkM.runFrom_bind_of_ok hrun]
    cases hwire' : calls'.any wire with
    | true =>
      rw [hwire', if_pos rfl] at hnext
      rw [if_pos rfl]
      exact hnext
    | false =>
      rw [hwire', if_neg Bool.false_ne_true] at hnext
      rw [if_neg Bool.false_ne_true]
      obtain ⟨b, after, hrun', hb, hgains'⟩ := hnext
      rw [hgains.inTry] at hgains'
      exact ⟨b, after, hrun', hb, hgains.trans hgains'⟩

theorem mono (h : Reads loader? wire calls uses post x)
    (huses : ∀ inTry, (uses inTry).Sublist (uses' inTry)) :
    Reads loader? wire calls uses' post x := by
  intro state
  have hx := h state
  split at hx
  · rw [if_pos ‹_›]
    exact hx
  · rw [if_neg ‹_›]
    obtain ⟨a, after, hrun, ha, hgains⟩ := hx
    exact ⟨a, after, hrun, ha, hgains.mono (huses state.inTry)⟩

theorem bind_still {goal : β → Prop} {k : α → WalkM β} (h : Reads loader? wire calls uses post x)
    (hk : ∀ a, post a → Reads loader? wire [] (fun _ => []) goal (k a)) :
    Reads loader? wire calls uses goal (x >>= k) := by
  have hbind := h.bind hk
  rw [List.append_nil] at hbind
  exact hbind.mono fun inTry => by rw [List.append_nil]

theorem still_bind {goal : β → Prop} {k : α → WalkM β}
    (h : Reads loader? wire [] (fun _ => []) post x)
    (hk : ∀ a, post a → Reads loader? wire calls uses goal (k a)) :
    Reads loader? wire calls uses goal (x >>= k) := h.bind hk

theorem withTry (value : Bool) (h : Reads loader? wire calls uses post x) :
    Reads loader? wire calls (fun _ => uses value) post (WalkM.withTry value x) := by
  intro state
  have hx := h { state with inTry := value }
  rw [WalkM.runFrom_withTry]
  split at hx
  · rw [if_pos ‹_›]
    exact hx
  · rw [if_neg ‹_›]
    obtain ⟨a, after, hrun, ha, hgains⟩ := hx
    rw [hrun]
    exact ⟨a, _, rfl, ha, rfl, hgains.injected, hgains.dependencies⟩

theorem forM {γ : Type} {xs : List γ} {calls : γ → List Call}
    {uses : γ → Bool → List (String × Bool)} {f : γ → WalkM Unit}
    (h : ∀ x ∈ xs, Reads loader? wire (calls x) (uses x) (fun _ => True) (f x)) :
    Reads loader? wire (xs.flatMap calls) (fun inTry => xs.flatMap fun x => uses x inTry)
      (fun _ => True) (xs.forM f) := by
  induction xs with
  | nil => exact Reads.pure trivial
  | cons x xs ih =>
    obtain ⟨hx, hxs⟩ := List.forall_mem_cons.mp h
    rw [List.flatMap_cons]
    exact hx.bind fun _ _ => ih hxs

/-- A call that needs nothing, with the wire across it or not. -/
theorem wired {call : Call} (hneed : call.need? = none)
    (h : Reads loader? wire calls uses post x) :
    Reads loader? wire (call :: calls) uses post
      (if wire call then WalkM.refuse HookTable.wireTouched else x) := by
  intro state
  have hx := h state
  rw [List.any_cons]
  cases wire call with
  | true => rfl
  | false =>
    rw [Bool.false_or, if_neg Bool.false_ne_true]
    split at hx
    · rw [if_pos ‹_›]
      exact hx
    · rw [if_neg ‹_›]
      obtain ⟨a, after, hrun, ha, hgains⟩ := hx
      exact ⟨a, after, hrun, ha, hgains.cons hneed⟩

theorem wired_require {call : Call} {id : String} (hneed : call.need? = some id) (a : α) :
    Reads loader? wire [call] (fun inTry => [(id, inTry)]) (fun b => b = a)
      (if wire call then WalkM.refuse HookTable.wireTouched
        else WalkM.record (.require id) >>= fun _ => Pure.pure a) := by
  intro state
  rw [List.any_cons]
  cases wire call with
  | true => rfl
  | false =>
    refine ⟨a, state.record (.require id), rfl, rfl, .of_refers rfl rfl rfl ⟨?_, ?_, ?_⟩⟩
    · rw [List.filterMap_cons_some hneed]
      rfl
    · exact List.nil_sublist _
    · exact .refl _

theorem record {dependency : Dependency} (hexternal : dependency.external? = none)
    (hrequest : dependency.request? = none) :
    Reads loader? wire [] (fun _ => []) (fun _ => True) (WalkM.record dependency) := by
  refine of_gains fun state => ⟨(), state.record dependency, rfl, trivial, ?_⟩
  refine .of_refers rfl rfl rfl ⟨?_, ?_, ?_⟩
  · rw [List.filterMap_cons_none (Dependency.required?_of_request? hrequest)]
    rfl
  · rw [List.filterMap_cons_none hexternal]
    exact .slnil
  · rw [List.filterMap_cons_none hrequest]
    exact .slnil

end WalkM.Reads

namespace Amd

variable {call : Call} {host : CallHost call}

theorem reads_warnAt (what : String) (place : UInt32) (problem : String) :
    WalkM.Reads loader? wire [] (fun _ => []) (fun _ => True) (warnAt what place problem) :=
  .of_still fun _ => ⟨(), _, rfl, trivial, rfl, rfl, rfl⟩

theorem reads_declare (name : Option String) :
    WalkM.Reads loader? wire [] (fun _ => []) (fun _ => True) (declare name) := by
  refine .of_still fun state => ?_
  cases name with
  | none => exact ⟨none, state, rfl, trivial, rfl, rfl, rfl⟩
  | some name => exact ⟨_, _, rfl, trivial, rfl, rfl, rfl⟩

theorem reads_claimArray {param : Expr} {ids : List String}
    (hparam : param.evaluate = .constArray ids) (render : ModuleIdentity → Render) (slots : Slots)
    (named : Option String) :
    WalkM.Reads loader? wire [] (fun inTry => param.literalUses inTry)
      (fun answer => answer.1 = .claim) (claimArray render param slots named) := by
  refine .of_gains fun state => ⟨_, _, runFrom_claimArray hparam slots state, rfl, ?_⟩
  rw [FileState.fst_addArray, Expr.literalUses_of_constArray hparam]
  exact .of_refers rfl rfl rfl refers_listDependencies

theorem reads_claimItem {param : Expr} {id : String} (hparam : param.evaluate = .string id)
    (render : ModuleIdentity → Render) (named : Option String) :
    WalkM.Reads loader? wire [] (fun inTry => param.literalUses inTry)
      (fun verdict => verdict = .claim) (claimItem render param named) := by
  refine .of_gains fun state => ⟨_, _, runFrom_claimItem hparam state, rfl, ?_⟩
  rw [Expr.literalUses_of_literal (literal?_of_string hparam)]
  exact .of_refers rfl rfl rfl refers_item_classify

/-! ### What the handler does with a call -/

/-- A host of a call that reads what it walks, and renders. -/
structure HostReads (loader? : Option String) (wire : Call → Bool) (host : CallHost call) :
    Prop where
  walk : ∀ e h, WalkM.Reads loader? wire (visitedExpr e) (fun inTry => e.literalUses inTry)
    (fun _ => True) (host.walk e h)
  answers : ∃ render, host.askArray = claimArray render ∧ host.askItem = claimItem render

section Handler

variable (reads : HostReads loader? wire host)

include reads

theorem reads_walkArgument (arg : Argument call.args) :
    WalkM.Reads loader? wire (visitedExpr arg.1) (fun inTry => arg.1.literalUses inTry)
      (fun _ => True) (walkArgument host arg) :=
  reads.walk arg.1 _

theorem reads_processElement (named : Option String) (element : Expr)
    (h : sizeOf element < sizeOf call.args) :
    WalkM.Reads loader? wire (visitedExpr element) (fun inTry => element.literalUses inTry)
      (fun _ => True) (processElement host named element h) := by
  obtain ⟨render, -, hask⟩ := reads.answers
  rw [processElement, hask]
  cases hstring : element.evaluate.isString with
  | true =>
    obtain ⟨id, hid⟩ := exists_of_isString hstring
    rw [visitedExpr_of_calls_nil (Expr.calls_of_literal (literal?_of_string hid))]
    refine (reads_claimItem hid render named).bind_still fun verdict hclaim => ?_
    subst hclaim
    exact .pure trivial
  | false =>
    rw [claimItem_of_not hstring, pure_bind]
    exact (reads_warnAt _ _ _).still_bind fun _ _ => reads.walk element h

theorem reads_processArray (list : Argument call.args) (slots : Slots) (named : Option String) :
    WalkM.Reads loader? wire (([list].filter (·.1.isArray)).flatMap fun list => visitedExpr list.1)
      (fun inTry => list.1.literalUses inTry) (fun _ => True)
      (processArray host list slots named) := by
  obtain ⟨render, hask, -⟩ := reads.answers
  rw [processArray, hask]
  -- a constant list is claimed as a whole and has no calls in it, any other is taken by elements
  cases hconst : list.1.evaluate.isConstArray with
  | true =>
    obtain ⟨ids, hids⟩ := exists_of_isConstArray hconst
    have hcalls : (([list].filter (·.1.isArray)).flatMap fun list => visitedExpr list.1) = [] := by
      rw [List.flatMap_eq_nil_iff]
      intro walked hwalked
      obtain rfl := List.mem_singleton.mp (List.mem_of_mem_filter hwalked)
      exact visitedExpr_of_calls_nil (Expr.calls_of_constArray hids)
    rw [hcalls]
    refine (reads_claimArray hids render slots named).bind_still fun answer hclaim => ?_
    obtain ⟨verdict, slots⟩ := answer
    obtain rfl : verdict = .claim := hclaim
    exact .pure trivial
  | false =>
    rw [claimArray_of_not hconst, pure_bind]
    obtain ⟨e, he⟩ := list
    cases e with
    | array span elements =>
      show WalkM.Reads loader? wire (visitedExpr (.array span elements) ++ []) _ _ _
      simp only [List.append_nil, Expr.literalUses]
      rw [visitedExpr]
      refine WalkM.Reads.bind_still (WalkM.Reads.mono (WalkM.Reads.forM fun element _ =>
        reads_processElement reads named element.1 _) fun inTry => ?_) fun _ _ => .pure trivial
      rw [literalUsesOfExprs_eq, ← List.flatMap_map Subtype.val, List.attach_map_subtype_val]
    | _ =>
      refine ((reads_warnAt _ _ _).bind_still fun _ _ => .pure trivial).mono fun inTry => ?_
      exact List.nil_sublist _

theorem reads_forM_walkArgument (arguments : List (Argument call.args)) :
    WalkM.Reads loader? wire (arguments.flatMap fun arg => visitedExpr arg.1)
      (fun inTry => arguments.flatMap fun arg => arg.1.literalUses inTry) (fun _ => True)
      (arguments.forM (walkArgument host)) :=
  .forM fun arg _ => reads_walkArgument reads arg

theorem reads_slots {β : Type} {calls : List Call} {uses : Bool → List (String × Bool)}
    {goal : β → Prop} {k : Slots → WalkM β} (list : Option (Argument call.args))
    (named : Option String) (hk : ∀ slots, WalkM.Reads loader? wire calls uses goal (k slots)) :
    WalkM.Reads loader? wire
      ((list.toList.filter (·.1.isArray)).flatMap (fun list => visitedExpr list.1) ++ calls)
      (fun inTry => (list.toList.flatMap fun list => list.1.literalUses inTry) ++ uses inTry) goal
      (match list with
        | some list => processArray host list (emptySlots list.1) named >>= k
        | none => pure [] >>= k) := by
  cases list with
  | none => exact (WalkM.Reads.pure trivial).still_bind fun slots (_ : True) => hk slots
  | some list =>
    refine ((reads_processArray reads list _ named).bind fun slots _ => hk slots).mono
      fun inTry => ?_
    rw [Option.toList_some, List.flatMap_singleton]

theorem reads_body {β : Type} {goal : β → Prop} {k : Unit → WalkM β}
    (body : Option (Argument call.args))
    (hk : WalkM.Reads loader? wire [] (fun _ => []) goal (k ())) :
    WalkM.Reads loader? wire (body.toList.flatMap fun body => visitedExpr body.1)
      (fun inTry => body.toList.flatMap fun body => body.1.literalUses inTry) goal
      (match body with
        | some body => walkArgument host body >>= k
        | none => k ()) := by
  cases body with
  | none => exact hk
  | some body =>
    simp only [Option.toList_some, List.flatMap_singleton]
    exact (reads_walkArgument reads body).bind_still fun _ _ => hk

theorem reads_handleDefine (args : DefineArgs call.args) :
    WalkM.Reads loader? wire
      ((args.array.toList.filter (·.1.isArray)).flatMap (fun list => visitedExpr list.1) ++
        args.body.toList.flatMap fun body => visitedExpr body.1)
      (fun inTry => (args.array.toList.flatMap fun list => list.1.literalUses inTry) ++
        args.body.toList.flatMap fun body => body.1.literalUses inTry)
      (fun _ => True) (handleDefine host args) := by
  rw [handleDefine]
  refine (reads_declare args.name).still_bind fun localModule _ => ?_
  refine reads_slots reads args.array args.name fun slots => ?_
  exact reads_body reads args.body (.record rfl rfl)

theorem reads_handleRequire (list : Argument call.args) (callbacks : List (Argument call.args)) :
    WalkM.Reads loader? wire
      (([list].filter (·.1.isArray)).flatMap (fun list => visitedExpr list.1) ++
        callbacks.flatMap fun callback => visitedExpr callback.1)
      (fun inTry => list.1.literalUses inTry ++
        callbacks.flatMap fun callback => callback.1.literalUses inTry)
      (fun _ => True) (handleRequire host list callbacks) := by
  rw [handleRequire, WalkM.discard_eq]
  exact ((reads_processArray reads list _ none).bind_still fun _ _ => .pure_eq ()).bind
    fun _ _ => reads_forM_walkArgument reads callbacks

/-- A `define` call is claimed if its arguments have the shape of one, and what is walked of it is
read. -/
theorem reads_callDefine (hcallee : call.callee = "define") :
    WalkM.Reads loader? wire
      (if isClaimed call.callee call.args then call.walked.flatMap visitedExpr else [])
      (fun inTry =>
        if isClaimed call.callee call.args then literalUsesOfExprs inTry call.args else [])
      (fun verdict => verdict = if isClaimed call.callee call.args then .claim else .pass)
      (callDefine call host) := by
  rw [isClaimed, if_pos hcallee]
  cases hargs : DefineArgs.ofArgs? call.args with
  | none =>
    rw [callDefine_of_none hargs]
    exact WalkM.Reads.pure_eq Verdict.pass
  | some parts =>
    have hwalked : call.walked.flatMap visitedExpr =
        (parts.array.toList.filter (·.1.isArray)).flatMap (fun list => visitedExpr list.1) ++
          parts.body.toList.flatMap fun body => visitedExpr body.1 := by
      rw [Call.walked_of_define hcallee hargs, ← map_val_filter_isArray, ← List.map_append,
        List.flatMap_map]
      exact List.flatMap_append
    obtain ⟨names, hnames, -⟩ := DefineArgs.args_eq hargs
    simp only [Option.isSome_some, if_true]
    rw [callDefine_of_some hargs, hwalked]
    refine ((reads_handleDefine reads parts).bind_still fun _ _ => .pure_eq Verdict.claim).mono
      fun inTry => ?_
    have huses := congrArg (List.flatMap (Expr.literalUses inTry)) hnames
    rw [List.flatMap_append, List.flatMap_append, List.flatMap_map, List.flatMap_map] at huses
    rw [literalUsesOfExprs_eq, huses]
    exact List.sublist_append_right _ _

/-- A `require` call is claimed if it is one that can be handled.  What is walked of it is read, and
an id that it needs at once is recorded. -/
theorem reads_callRequire (hcallee : call.callee = "require") :
    WalkM.Reads loader? wire
      (call :: if isClaimed call.callee call.args then call.walked.flatMap visitedExpr else [])
      (fun inTry =>
        if isClaimed call.callee call.args then literalUsesOfExprs inTry call.args else [])
      (fun verdict => verdict = if isClaimed call.callee call.args then .claim else .pass)
      (if wire call then WalkM.refuse HookTable.wireTouched else callRequire call host) := by
  have hdefine : call.callee ≠ "define" := by
    rw [hcallee]
    decide
  rw [isClaimed, if_neg hdefine, if_pos hcallee]
  cases hargs : RequireArgs.ofArgs? call.args with
  | none =>
    rw [callRequire_of_none hargs]
    have hneed : call.need? = none := Call.need?_of_not_now fun id => by simp [hargs]
    exact (WalkM.Reads.pure_eq Verdict.pass).wired hneed
  | some args =>
    simp only [Option.isSome_some, if_true]
    cases args with
    | now id =>
      obtain ⟨only, honly, htext⟩ := RequireArgs.args_eq_of_now hargs
      have hneed : call.need? = some id := Call.need?_of_now hcallee hargs
      rw [callRequire_of_now hargs, Call.walked_of_now hcallee hargs]
      refine (WalkM.Reads.wired_require hneed Verdict.claim).mono fun inTry => ?_
      rw [honly, literalUsesOfExprs, literalUsesOfExprs, Expr.literalUses_of_literal htext,
        List.append_nil]
    | list list callbacks =>
      have hneed : call.need? = none := Call.need?_of_not_now fun id => by simp [hargs]
      have hwalked : call.walked.flatMap visitedExpr =
          ([list].filter (·.1.isArray)).flatMap (fun list => visitedExpr list.1) ++
            callbacks.flatMap fun callback => visitedExpr callback.1 := by
        rw [Call.walked_of_list hcallee hargs, ← List.map_singleton (f := Subtype.val) (a := list),
          ← map_val_filter_isArray, List.flatMap_append, List.flatMap_map, List.flatMap_map]
      rw [callRequire_of_list hargs, hwalked]
      refine WalkM.Reads.wired hneed <| ((reads_handleRequire reads list callbacks).bind_still
        fun _ _ => .pure_eq Verdict.claim).mono fun inTry => ?_
      have huses := congrArg (List.flatMap (Expr.literalUses inTry))
        (RequireArgs.args_eq_of_list hargs)
      rw [List.flatMap_cons, List.flatMap_map] at huses
      rw [literalUsesOfExprs_eq, huses]

end Handler

end Amd

end Steps

namespace AmdPlugin

open Amd HookTable

variable {parts : List AmdPlugin} {kind : DefineKind} {wire : Call → Bool}

/-! ### Offers of calls -/

section Offer

variable {call : Call} {walk : Walker call}

theorem gains_mark (loader : String) (id : UInt32) (state : FileState) :
    Gains (some loader) [] [] state (mark loader id state) := by
  unfold mark Dojo.injectLoader
  cases hinjected : state.loaderInjected with
  | true => exact .of_refers rfl hinjected.symm (List.append_nil _).symm refers_nil
  | false =>
    refine ⟨rfl, fun _ => rfl, [.require loader], [], rfl, ?_, refers_nil⟩
    rw [hinjected]
    exact ⟨[], [], rfl, rfl⟩

theorem reads_callDefine_table {calls : List Call} {uses : Bool → List (String × Bool)}
    {post : Verdict → Prop} (hparts : .handler ∈ parts)
    (h : WalkM.Reads (parts.findSome? loader?) wire calls uses post
      (handled (table parts kind) call walk)) :
    WalkM.Reads (parts.findSome? loader?) wire calls uses post
      ((table parts kind).callDefine call walk) := by
  intro state
  rw [runFrom_callDefine_table hparts]
  cases hloader : parts.findSome? loader? with
  | none =>
    rw [hloader] at h
    exact h state
  | some loader =>
    rw [hloader] at h
    cases hmem : state.processing.contains call.id with
    | true => exact h state
    | false =>
      have hmarked := h (mark loader call.id state)
      have hmark := gains_mark loader call.id state
      simp only [Bool.false_eq_true, if_false]
      split at hmarked
      · rw [if_pos ‹_›]
        exact hmarked
      · rw [if_neg ‹_›]
        obtain ⟨verdict, after, hrun, hverdict, hgains⟩ := hmarked
        rw [hmark.inTry] at hgains
        rw [hrun]
        have hall := hmark.trans hgains
        exact ⟨verdict, after.leave call.id, rfl, hverdict, hall.inTry, hall.injected,
          hall.dependencies⟩

theorem hostReads_table {script? : Option String} (hparts : .handler ∈ parts)
    (hwalk : ∀ e h, WalkM.Reads script? wire (visitedExpr e) (fun inTry => e.literalUses inTry)
      (fun _ => True) (walk e h)) :
    HostReads script? wire ((table parts kind).host call walk (pure .pass)) where
  walk := hwalk
  answers := answers_table hparts

theorem reads_offer (hparts : .handler ∈ parts)
    (hwalk : ∀ e h, WalkM.Reads (parts.findSome? loader?) wire (visitedExpr e)
      (fun inTry => e.literalUses inTry) (fun _ => True) (walk e h)) :
    WalkM.Reads (parts.findSome? loader?) wire
      (call :: if isClaimed call.callee call.args then call.walked.flatMap visitedExpr else [])
      (fun inTry =>
        if isClaimed call.callee call.args then literalUsesOfExprs inTry call.args else [])
      (fun verdict => verdict = if isClaimed call.callee call.args then .claim else .pass)
      ((table parts kind).wired wire call walk) := by
  have hreads : HostReads (parts.findSome? loader?) wire
      ((table parts kind).host call walk (pure .pass)) := hostReads_table hparts hwalk
  rw [wired, offer]
  by_cases hdefine : call.callee = "define"
  · rw [if_pos hdefine]
    have hneed : call.need? = none :=
      Call.need?_of_callee_ne (by rw [hdefine]; decide)
    exact (reads_callDefine_table hparts (reads_callDefine hreads hdefine)).wired hneed
  · rw [if_neg hdefine]
    by_cases hrequire : call.callee = "require"
    · rw [if_pos hrequire, callRequire_table hparts]
      exact reads_callRequire hreads hrequire
    · rw [if_neg hrequire, isClaimed, if_neg hdefine, if_neg hrequire]
      exact (WalkM.Reads.pure_eq Verdict.pass).wired
        (Call.need?_of_callee_ne hrequire)

end Offer

/-! ### Walks -/

mutual

theorem reads_walkNodes (hparts : .handler ∈ parts) (nodes : List Node) :
    WalkM.Reads (parts.findSome? loader?) wire (visitedNodes nodes)
      (fun inTry => literalUsesOfNodes inTry nodes) (fun _ => True)
      (walkNodesBy ((table parts kind).wired wire) nodes) := by
  match nodes with
  | [] =>
    rw [walkNodesBy, visitedNodes]
    exact .pure trivial
  | .expr e :: rest =>
    rw [walkNodesBy, visitedNodes]
    exact (reads_walkExpr hparts e).bind fun _ _ => reads_walkNodes hparts rest
  | .tryCatch block onError :: rest =>
    rw [walkNodesBy, visitedNodes, List.append_assoc]
    refine (((reads_walkNodes hparts block).withTry true).bind fun _ _ =>
      (reads_walkNodes hparts onError).bind fun _ _ => reads_walkNodes hparts rest).mono
        fun inTry => ?_
    rw [literalUsesOfNodes, List.append_assoc]
termination_by sizeOf nodes

theorem reads_walkExpr (hparts : .handler ∈ parts) (e : Expr) :
    WalkM.Reads (parts.findSome? loader?) wire (visitedExpr e)
      (fun inTry => e.literalUses inTry) (fun _ => True)
      (walkExprBy ((table parts kind).wired wire) e) := by
  match e with
  | .call id span callee args =>
    -- what is inside the call is smaller, so the induction serves the walker that hooks get
    have hwalk : ∀ e, sizeOf e < sizeOf args →
        WalkM.Reads (parts.findSome? loader?) wire (visitedExpr e)
          (fun inTry => e.literalUses inTry) (fun _ => True)
          (walkExprBy ((table parts kind).wired wire) e) :=
      fun e h => reads_walkExpr hparts e
    have hargs := reads_walkExprs hparts args
    have hoffer : WalkM.Reads (parts.findSome? loader?) wire
        (⟨id, span, callee, args⟩ :: if isClaimed callee args then
          (Call.mk id span callee args).walked.flatMap visitedExpr else [])
        (fun inTry => if isClaimed callee args then literalUsesOfExprs inTry args else [])
        (fun verdict => verdict = if isClaimed callee args then .claim else .pass)
        ((table parts kind).wired wire ⟨id, span, callee, args⟩ fun e _ =>
          walkExprBy ((table parts kind).wired wire) e) :=
      reads_offer hparts hwalk
    rw [walkExprBy]
    show WalkM.Reads _ _ (visitedExpr (Call.toExpr ⟨id, span, callee, args⟩)) _ _ _
    rw [visitedExpr_call]
    -- the arguments of a claimed call are the matter of hooks, those of any other are walked here
    cases hclaimed : isClaimed callee args with
    | true =>
      simp only [hclaimed, if_true] at hoffer
      refine hoffer.bind_still fun verdict hverdict => ?_
      obtain rfl : verdict = .claim := hverdict
      exact .pure trivial
    | false =>
      simp only [hclaimed, Bool.false_eq_true, if_false] at hoffer
      rw [Call.walked, walkedArgs_of_not_claimed hclaimed, List.attach_map_subtype_val]
      refine hoffer.bind fun verdict hverdict => ?_
      obtain rfl : verdict = .pass := hverdict
      exact hargs
  | .function span params body =>
    rw [walkExprBy, visitedExpr]
    exact (reads_walkNodes hparts body).withTry false
  | .array span elements =>
    rw [walkExprBy, visitedExpr_array]
    exact reads_walkExprs hparts elements
  | .str .. | .object .. | .ident .. | .other .. =>
    rw [walkExprBy, visitedExpr]
    · exact (WalkM.Reads.pure trivial).mono fun inTry => List.nil_sublist _
    all_goals simp
termination_by sizeOf e

theorem reads_walkExprs (hparts : .handler ∈ parts) (es : List Expr) :
    WalkM.Reads (parts.findSome? loader?) wire (es.flatMap visitedExpr)
      (fun inTry => literalUsesOfExprs inTry es) (fun _ => True)
      (walkExprsBy ((table parts kind).wired wire) es) := by
  match es with
  | [] =>
    rw [walkExprsBy]
    exact .pure trivial
  | e :: rest =>
    rw [walkExprsBy, List.flatMap_cons]
    exact (reads_walkExpr hparts e).bind fun _ _ => reads_walkExprs hparts rest
termination_by sizeOf es

end

/-! ### Files -/

variable (state : FileState) (program : List Node)

/-- A walk comes to a call that has the wire across it exactly if there is one among those that
`visitedNodes` lists. -/
theorem comesTo_iff (hparts : .handler ∈ parts) :
    (table parts kind).ComesTo wire program state ↔ (visitedNodes program).any wire = true := by
  have hwalk : WalkM.Reads (parts.findSome? loader?) wire _ _ _
      (walkNodesBy ((table parts kind).wired wire) program) := reads_walkNodes hparts program
  specialize hwalk state
  unfold ComesTo
  split at hwalk
  · rename_i hany
    exact ⟨fun _ => hany, fun _ => hwalk⟩
  · rename_i hany
    obtain ⟨⟨⟩, after, hrun, -, -⟩ := hwalk
    rw [hrun]
    simp [hany]

theorem exists_gains_walk (hparts : .handler ∈ parts) :
    ∃ after, FileState.walk (table parts kind) program state = (.ok (), after) ∧
      Gains (parts.findSome? loader?) (visitedNodes program)
        (literalUsesOfNodes state.inTry program) state after := by
  have hwalk : WalkM.Reads (parts.findSome? loader?) (fun _ => false) _ _ _
      (walkNodesBy ((table parts kind).wired fun _ => false) program) :=
    reads_walkNodes hparts program
  specialize hwalk state
  rw [walkNodesBy_unwired, List.any_eq_false.mpr fun _ _ => Bool.false_ne_true] at hwalk
  obtain ⟨⟨⟩, after, hrun, -, hgains⟩ := hwalk
  exact ⟨after, hrun, hgains⟩

end AmdPlugin
end AmdBundle
