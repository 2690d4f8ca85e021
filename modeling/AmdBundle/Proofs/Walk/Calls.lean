import AmdBundle.Proofs.Walk.Literals
import Mathlib.Data.List.Basic
import Mathlib.Data.List.Flatten

/-!
# AmdBundle.Proofs.Walk.Calls — the calls of a program

All calls of a program, at any depth (`callsOfNodes`), next to those that a walk comes to
(`visitedNodes`).  A walk misses a call exactly if it stands in the dependency list of a call that
the handler claims, and that list is no array literal (`visitedNodes_eq_iff`).
-/

namespace AmdBundle

open Amd

mutual

/-- The calls in an expression, from left to right, each before those in its arguments. -/
def Expr.calls : Expr → List Call
  | .call id span callee args => ⟨id, span, callee, args⟩ :: callsOfExprs args
  | .array _ elements => callsOfExprs elements
  | .function _ _ body => callsOfNodes body
  | .str _ _ | .object _ | .ident _ _ | .other _ => []

def callsOfExprs : List Expr → List Call
  | [] => []
  | e :: rest => e.calls ++ callsOfExprs rest

def callsOfNodes : List Node → List Call
  | [] => []
  | .expr e :: rest => e.calls ++ callsOfNodes rest
  | .tryCatch block handler :: rest =>
    callsOfNodes block ++ callsOfNodes handler ++ callsOfNodes rest

end

theorem callsOfExprs_eq (es : List Expr) : callsOfExprs es = es.flatMap Expr.calls := by
  induction es with
  | nil => rfl
  | cons e es ih => rw [callsOfExprs, ih, List.flatMap_cons]

theorem Expr.calls_of_literal {e : Expr} {text : String} (h : e.literal? = some text) :
    e.calls = [] := by
  cases e <;> simp [literal?] at h
  rw [calls]

theorem Expr.calls_of_constArray {e : Expr} {ids : List String}
    (h : e.evaluate = .constArray ids) : e.calls = [] := by
  obtain ⟨span, elements, rfl, hall⟩ := literals_of_constArray h
  rw [calls, callsOfExprs_eq, List.flatMap_eq_nil_iff]
  intro element helement
  obtain ⟨text, htext⟩ := literal?_of_mapM hall helement
  exact calls_of_literal htext

theorem visitedExpr_array (span : Span) (elements : List Expr) :
    visitedExpr (.array span elements) = elements.flatMap visitedExpr := by
  conv_rhs => rw [← List.attach_map_subtype_val elements, List.flatMap_map]
  rw [visitedExpr]

/-! ### The parts of a call -/

/-- The dependency list of a call, if the handler claims the call and it has one. -/
def Call.dependencyList? (call : Call) : Option Expr :=
  if call.callee = "define" then
    (DefineArgs.ofArgs? call.args).bind fun parts => parts.array.map Subtype.val
  else if call.callee = "require" then
    match RequireArgs.ofArgs? call.args with
    | some (.list list _) => some list.1
    | _ => none
  else none

/-- If the dependency list of a call is no array literal, it has no calls in it. -/
def Call.ListsOpenly (call : Call) : Prop :=
  ∀ list, call.dependencyList? = some list → list.isArray = false → list.calls = []

/-- The arguments of a call that are walked, as expressions. -/
def Call.walked (call : Call) : List Expr :=
  (walkedArgs call.callee call.args).map Subtype.val

theorem visitedExpr_call (call : Call) :
    visitedExpr call.toExpr = call :: call.walked.flatMap visitedExpr := by
  rw [Call.toExpr, visitedExpr, Call.walked, List.flatMap_map]

theorem Amd.DefineArgs.args_eq {args : List Expr} {parts : DefineArgs args}
    (h : DefineArgs.ofArgs? args = some parts) :
    ∃ names : List Expr,
      args = names ++ (parts.array.toList.map Subtype.val ++ parts.body.toList.map Subtype.val) ∧
      ∀ e ∈ names, ∃ text, e.literal? = some text := by
  unfold DefineArgs.ofArgs? at h
  split at h
  · split at h
    · obtain rfl := Option.some.inj h
      exact ⟨[], rfl, by simp⟩
    · obtain rfl := Option.some.inj h
      exact ⟨[], rfl, by simp⟩
  · rename_i first body
    split at h
    · rename_i name hname
      obtain rfl := Option.some.inj h
      exact ⟨[first], rfl, by simpa using ⟨name, hname⟩⟩
    · obtain rfl := Option.some.inj h
      exact ⟨[], rfl, by simp⟩
  · rename_i first list body
    obtain ⟨name, hname, hparts⟩ := Option.map_eq_some_iff.mp h
    obtain rfl := hparts
    exact ⟨[first], rfl, by simpa using ⟨name, hname⟩⟩
  · simp at h

theorem Amd.RequireArgs.args_eq_of_now {args : List Expr} {id : String}
    (h : RequireArgs.ofArgs? args = some (.now id)) :
    ∃ only, args = [only] ∧ only.literal? = some id := by
  unfold RequireArgs.ofArgs? at h
  split at h
  · rename_i only
    split at h
    · rename_i text htext
      obtain rfl : text = id := by simpa using h
      exact ⟨only, rfl, htext⟩
    · split at h <;> simp at h
  · split at h <;> simp at h
  · split at h <;> simp at h
  · simp at h

theorem Amd.RequireArgs.args_eq_of_list {args : List Expr} {list : Argument args}
    {callbacks : List (Argument args)}
    (h : RequireArgs.ofArgs? args = some (.list list callbacks)) :
    args = list.1 :: callbacks.map Subtype.val := by
  unfold RequireArgs.ofArgs? at h
  split at h
  · split at h
    · simp at h
    · split at h
      · simp only [Option.some.injEq, RequireArgs.list.injEq] at h
        obtain ⟨rfl, rfl⟩ := h
        rfl
      · simp at h
  · split at h
    · simp at h
    · simp only [Option.some.injEq, RequireArgs.list.injEq] at h
      obtain ⟨rfl, rfl⟩ := h
      rfl
  · split at h
    · simp at h
    · simp only [Option.some.injEq, RequireArgs.list.injEq] at h
      obtain ⟨rfl, rfl⟩ := h
      rfl
  · simp at h

theorem map_val_filter_isArray {args : List Expr} (lists : List (Argument args)) :
    (lists.filter (·.1.isArray)).map Subtype.val = (lists.map Subtype.val).filter Expr.isArray := by
  rw [List.filter_map]
  rfl

namespace Call

variable {call : Call}

theorem walked_of_define {args : DefineArgs call.args} (hdefine : call.callee = "define")
    (hargs : DefineArgs.ofArgs? call.args = some args) :
    call.walked = (args.array.toList.map Subtype.val).filter Expr.isArray ++
      args.body.toList.map Subtype.val := by
  rw [walked, walkedArgs, if_pos hdefine, hargs, ← map_val_filter_isArray]
  exact List.map_append

theorem walked_of_now {id : String} (hrequire : call.callee = "require")
    (hargs : RequireArgs.ofArgs? call.args = some (.now id)) : call.walked = [] := by
  rw [walked, walkedArgs, if_neg (by rw [hrequire]; decide), if_pos hrequire, hargs]
  rfl

theorem walked_of_list {list : Argument call.args} {callbacks : List (Argument call.args)}
    (hrequire : call.callee = "require")
    (hargs : RequireArgs.ofArgs? call.args = some (.list list callbacks)) :
    call.walked = [list.1].filter Expr.isArray ++ callbacks.map Subtype.val := by
  rw [walked, walkedArgs, if_neg (by rw [hrequire]; decide), if_pos hrequire, hargs]
  show ([list].filter (·.1.isArray) ++ callbacks).map Subtype.val = _
  rw [List.map_append, map_val_filter_isArray]
  rfl

end Call

/-- The arguments of a call are literals, then its dependency list, if it has one, and then bodies.
What is walked are the bodies, and the list if it is an array literal. -/
structure Call.SplitsInto (call : Call) (names bodies : List Expr) : Prop where
  args : call.args = names ++ (call.dependencyList?.toList ++ bodies)
  names : ∀ e ∈ names, ∃ text, e.literal? = some text
  walked : call.walked = call.dependencyList?.toList.filter Expr.isArray ++ bodies

namespace Call

section Splits

variable {call : Call}

theorem splitsInto_args (hlist : call.dependencyList? = none)
    (hwalked : walkedArgs call.callee call.args = call.args.attach) :
    call.SplitsInto [] call.args := by
  refine ⟨?_, fun e he => absurd he List.not_mem_nil, ?_⟩
  · rw [hlist]
    rfl
  · rw [walked, hwalked, List.attach_map_subtype_val, hlist]
    rfl

theorem exists_splitsInto_of_define (hdefine : call.callee = "define") :
    ∃ names bodies, call.SplitsInto names bodies := by
  cases hargs : DefineArgs.ofArgs? call.args with
  | none =>
    refine ⟨[], call.args, splitsInto_args ?_ ?_⟩
    · rw [dependencyList?, if_pos hdefine, hargs]
      rfl
    · rw [walkedArgs, if_pos hdefine, hargs]
  | some parts =>
    obtain ⟨names, hnames, hliteral⟩ := DefineArgs.args_eq hargs
    have hlist : call.dependencyList?.toList = parts.array.toList.map Subtype.val := by
      rw [dependencyList?, if_pos hdefine, hargs, ← Option.toList_map]
      rfl
    refine ⟨names, parts.body.toList.map Subtype.val, ?_, hliteral, ?_⟩
    · rw [hlist]
      exact hnames
    · rw [hlist, walked_of_define hdefine hargs]

theorem exists_splitsInto_of_require (hrequire : call.callee = "require") :
    ∃ names bodies, call.SplitsInto names bodies := by
  have hdefine : call.callee ≠ "define" := by
    rw [hrequire]
    decide
  cases hargs : RequireArgs.ofArgs? call.args with
  | none =>
    refine ⟨[], call.args, splitsInto_args ?_ ?_⟩
    · rw [dependencyList?, if_neg hdefine, if_pos hrequire, hargs]
    · rw [walkedArgs, if_neg hdefine, if_pos hrequire, hargs]
  | some args =>
    cases args with
    | now id =>
      obtain ⟨only, honly, hliteral⟩ := RequireArgs.args_eq_of_now hargs
      have hlist : call.dependencyList? = none := by
        rw [dependencyList?, if_neg hdefine, if_pos hrequire, hargs]
      refine ⟨[only], [], ?_, ?_, ?_⟩
      · rw [hlist]
        exact honly
      · intro e he
        obtain rfl := List.mem_singleton.mp he
        exact ⟨id, hliteral⟩
      · rw [hlist, walked_of_now hrequire hargs]
        rfl
    | list list callbacks =>
      have hlist : call.dependencyList? = some list.1 := by
        rw [dependencyList?, if_neg hdefine, if_pos hrequire, hargs]
      refine ⟨[], callbacks.map Subtype.val, ?_, fun e he => absurd he List.not_mem_nil, ?_⟩
      · rw [hlist]
        exact RequireArgs.args_eq_of_list hargs
      · rw [hlist, walked_of_list hrequire hargs]
        rfl

theorem exists_splitsInto (call : Call) : ∃ names bodies, call.SplitsInto names bodies := by
  by_cases hdefine : call.callee = "define"
  · exact exists_splitsInto_of_define hdefine
  · by_cases hrequire : call.callee = "require"
    · exact exists_splitsInto_of_require hrequire
    · refine ⟨[], call.args, splitsInto_args ?_ ?_⟩
      · rw [dependencyList?, if_neg hdefine, if_neg hrequire]
      · rw [walkedArgs, if_neg hdefine, if_neg hrequire]

end Splits

/-! ### What a walk comes to -/

variable (call : Call)

theorem exists_calls_parts :
    ∃ bodies : List Expr,
      callsOfExprs call.args =
        call.dependencyList?.toList.flatMap Expr.calls ++ bodies.flatMap Expr.calls ∧
      call.walked = call.dependencyList?.toList.filter Expr.isArray ++ bodies := by
  obtain ⟨names, bodies, hargs, hnames, hwalked⟩ := call.exists_splitsInto
  refine ⟨bodies, ?_, hwalked⟩
  have hnone : names.flatMap Expr.calls = [] := by
    rw [List.flatMap_eq_nil_iff]
    intro e he
    obtain ⟨text, htext⟩ := hnames e he
    exact Expr.calls_of_literal htext
  rw [callsOfExprs_eq, hargs, List.flatMap_append, List.flatMap_append, hnone, List.nil_append]

theorem flatMap_walked_sublist :
    (call.walked.flatMap Expr.calls).Sublist (callsOfExprs call.args) := by
  obtain ⟨bodies, hcalls, hwalked⟩ := call.exists_calls_parts
  rw [hcalls, hwalked, List.flatMap_append]
  exact (List.filter_sublist.flatMap Expr.calls).append_right _

/-- What is walked of a call has all calls of its arguments exactly if its list is an array literal
or has no calls. -/
theorem flatMap_walked_eq_iff :
    call.walked.flatMap Expr.calls = callsOfExprs call.args ↔ call.ListsOpenly := by
  obtain ⟨bodies, hcalls, hwalked⟩ := call.exists_calls_parts
  rw [hcalls, hwalked, List.flatMap_append, List.append_left_inj, ListsOpenly]
  cases call.dependencyList? with
  | none => simp
  | some list =>
    rw [Option.toList_some, List.flatMap_singleton]
    cases harray : list.isArray with
    | true => simp [harray]
    | false => simp [harray, eq_comm (a := [])]

end Call

theorem append_eq_append_iff_of_sublist {α : Type} {a a' b b' : List α} (ha : a.Sublist a')
    (hb : b.Sublist b') : a ++ b = a' ++ b' ↔ a = a' ∧ b = b' := by
  constructor
  · intro h
    have hlength := congrArg List.length h
    rw [List.length_append, List.length_append] at hlength
    have hle := ha.length_le
    have hle' := hb.length_le
    exact ⟨ha.eq_of_length (by omega), hb.eq_of_length (by omega)⟩
  · rintro ⟨rfl, rfl⟩
    rfl

theorem flatMap_eq_iff_of_sublist {α β : Type} {xs : List α} {f g : α → List β}
    (h : ∀ x ∈ xs, (f x).Sublist (g x)) :
    xs.flatMap f = xs.flatMap g ↔ ∀ x ∈ xs, f x = g x := by
  induction xs with
  | nil => simp
  | cons x xs ih =>
    obtain ⟨hx, hxs⟩ := List.forall_mem_cons.mp h
    rw [List.flatMap_cons, List.flatMap_cons, List.forall_mem_cons, ← ih hxs]
    exact append_eq_append_iff_of_sublist hx (List.Sublist.flatMap_right xs hxs)

mutual

theorem visitedNodes_sublist (nodes : List Node) :
    (visitedNodes nodes).Sublist (callsOfNodes nodes) := by
  match nodes with
  | [] =>
    rw [visitedNodes]
    exact List.nil_sublist _
  | .expr e :: rest =>
    rw [visitedNodes, callsOfNodes]
    exact (visitedExpr_sublist e).append (visitedNodes_sublist rest)
  | .tryCatch block onError :: rest =>
    rw [visitedNodes, callsOfNodes]
    exact ((visitedNodes_sublist block).append (visitedNodes_sublist onError)).append
      (visitedNodes_sublist rest)
termination_by sizeOf nodes

theorem visitedExpr_sublist (e : Expr) : (visitedExpr e).Sublist e.calls := by
  match e with
  | .call id span callee args =>
    have hargs : ∀ arg ∈ (Call.mk id span callee args).walked,
        (visitedExpr arg).Sublist arg.calls := by
      intro arg harg
      obtain ⟨arg, -, rfl⟩ := List.mem_map.mp harg
      exact visitedExpr_sublist arg.1
    show (visitedExpr (Call.toExpr ⟨id, span, callee, args⟩)).Sublist _
    rw [visitedExpr_call]
    exact ((List.Sublist.flatMap_right _ hargs).trans (Call.flatMap_walked_sublist _)).cons_cons _
  | .function span params body =>
    rw [visitedExpr, Expr.calls]
    exact visitedNodes_sublist body
  | .array span elements =>
    rw [visitedExpr_array, Expr.calls, callsOfExprs_eq]
    exact List.Sublist.flatMap_right _ fun element helement => visitedExpr_sublist element
  | .str .. | .object .. | .ident .. | .other .. =>
    rw [visitedExpr]
    · exact List.nil_sublist _
    all_goals simp
termination_by sizeOf e
decreasing_by
  · have hlt : sizeOf arg.1 < sizeOf args := List.sizeOf_lt_of_mem arg.2
    rw [Expr.call.sizeOf_spec]
    omega
  · rw [Expr.function.sizeOf_spec]
    omega
  · have hlt := List.sizeOf_lt_of_mem helement
    rw [Expr.array.sizeOf_spec]
    omega

end

theorem visitedExpr_of_calls_nil {e : Expr} (h : e.calls = []) : visitedExpr e = [] := by
  rw [← List.sublist_nil, ← h]
  exact visitedExpr_sublist e

mutual

/-- A walk comes to all calls of a program exactly if no dependency list hides one. -/
theorem visitedNodes_eq_iff (nodes : List Node) :
    visitedNodes nodes = callsOfNodes nodes ↔ ∀ call ∈ callsOfNodes nodes, call.ListsOpenly := by
  match nodes with
  | [] =>
    rw [visitedNodes, callsOfNodes]
    simp
  | .expr e :: rest =>
    rw [visitedNodes, callsOfNodes, List.forall_mem_append, ← visitedExpr_eq_iff e,
      ← visitedNodes_eq_iff rest]
    exact append_eq_append_iff_of_sublist (visitedExpr_sublist e) (visitedNodes_sublist rest)
  | .tryCatch block onError :: rest =>
    have hblock := visitedNodes_sublist block
    have honError := visitedNodes_sublist onError
    rw [visitedNodes, callsOfNodes, List.forall_mem_append, List.forall_mem_append,
      ← visitedNodes_eq_iff block, ← visitedNodes_eq_iff onError, ← visitedNodes_eq_iff rest,
      append_eq_append_iff_of_sublist (hblock.append honError) (visitedNodes_sublist rest),
      append_eq_append_iff_of_sublist hblock honError]
termination_by sizeOf nodes

theorem visitedExpr_eq_iff (e : Expr) :
    visitedExpr e = e.calls ↔ ∀ call ∈ e.calls, call.ListsOpenly := by
  match e with
  | .call id span callee args =>
    have hsub : ∀ arg ∈ (Call.mk id span callee args).walked,
        (visitedExpr arg).Sublist arg.calls := fun arg _ => visitedExpr_sublist arg
    have hargs : ∀ arg ∈ (Call.mk id span callee args).walked,
        (visitedExpr arg = arg.calls ↔ ∀ call ∈ arg.calls, call.ListsOpenly) := by
      intro arg harg
      obtain ⟨arg, -, rfl⟩ := List.mem_map.mp harg
      exact visitedExpr_eq_iff arg.1
    show visitedExpr (Call.toExpr ⟨id, span, callee, args⟩) = _ ↔ _
    rw [visitedExpr_call, Expr.calls, List.cons_inj_right, List.forall_mem_cons,
      ← Call.flatMap_walked_eq_iff]
    have hmid := List.Sublist.flatMap_right _ hsub
    have hend := Call.flatMap_walked_sublist ⟨id, span, callee, args⟩
    constructor
    · intro h
      -- the calls that are come to lie between, so they are all calls of what is walked
      have hwalked := hend.antisymm (h ▸ hmid)
      refine ⟨hwalked, ?_⟩
      rw [← hwalked]
      intro call hcall
      obtain ⟨arg, harg, hcall⟩ := List.mem_flatMap.mp hcall
      have hall := (flatMap_eq_iff_of_sublist hsub).mp (h.trans hwalked.symm)
      exact (hargs arg harg).mp (hall arg harg) call hcall
    · rintro ⟨hwalked, hopen⟩
      rw [← hwalked] at hopen ⊢
      refine (flatMap_eq_iff_of_sublist hsub).mpr fun arg harg => ?_
      exact (hargs arg harg).mpr fun call hcall =>
        hopen call (List.mem_flatMap.mpr ⟨arg, harg, hcall⟩)
  | .function span params body =>
    rw [visitedExpr, Expr.calls]
    exact visitedNodes_eq_iff body
  | .array span elements =>
    have helements : ∀ element ∈ elements,
        (visitedExpr element = element.calls ↔ ∀ call ∈ element.calls, call.ListsOpenly) :=
      fun element helement => visitedExpr_eq_iff element
    rw [visitedExpr_array, Expr.calls, callsOfExprs_eq,
      flatMap_eq_iff_of_sublist fun element _ => visitedExpr_sublist element]
    constructor
    · intro h call hcall
      obtain ⟨element, helement, hcall⟩ := List.mem_flatMap.mp hcall
      exact (helements element helement).mp (h element helement) call hcall
    · intro h element helement
      refine (helements element helement).mpr fun call hcall => ?_
      exact h call (List.mem_flatMap.mpr ⟨element, helement, hcall⟩)
  | .str .. | .object .. | .ident .. | .other .. =>
    rw [visitedExpr, Expr.calls]
    · simp
    all_goals simp
termination_by sizeOf e
decreasing_by
  · have hlt : sizeOf arg.1 < sizeOf args := List.sizeOf_lt_of_mem arg.2
    rw [Expr.call.sizeOf_spec]
    omega
  · rw [Expr.function.sizeOf_spec]
    omega
  · have hlt := List.sizeOf_lt_of_mem helement
    rw [Expr.array.sizeOf_spec]
    omega

end

/-! ### Literals of calls -/

mutual

theorem mem_literalsOfNodes_of_call {call : Call} {text : String} {nodes : List Node}
    (hcall : call ∈ callsOfNodes nodes) (htext : text ∈ literalsOfExprs call.args) :
    text ∈ literalsOfNodes nodes := by
  match nodes with
  | [] =>
    rw [callsOfNodes] at hcall
    exact absurd hcall List.not_mem_nil
  | .expr e :: rest =>
    rw [callsOfNodes, List.mem_append] at hcall
    rw [literalsOfNodes, List.mem_append]
    exact hcall.imp (mem_literals_of_call · htext) (mem_literalsOfNodes_of_call · htext)
  | .tryCatch block onError :: rest =>
    rw [callsOfNodes, List.mem_append, List.mem_append] at hcall
    rw [literalsOfNodes, List.mem_append, List.mem_append]
    exact hcall.imp
      (·.imp (mem_literalsOfNodes_of_call · htext) (mem_literalsOfNodes_of_call · htext))
      (mem_literalsOfNodes_of_call · htext)
termination_by sizeOf nodes

theorem mem_literals_of_call {call : Call} {text : String} {e : Expr} (hcall : call ∈ e.calls)
    (htext : text ∈ literalsOfExprs call.args) : text ∈ e.literals := by
  match e with
  | .call id span callee args =>
    rw [Expr.calls, List.mem_cons] at hcall
    rw [Expr.literals]
    rcases hcall with rfl | hcall
    · exact htext
    · exact mem_literalsOfExprs_of_call hcall htext
  | .function span params body =>
    rw [Expr.calls] at hcall
    rw [Expr.literals]
    exact mem_literalsOfNodes_of_call hcall htext
  | .array span elements =>
    rw [Expr.calls] at hcall
    rw [Expr.literals]
    exact mem_literalsOfExprs_of_call hcall htext
  | .str .. | .object .. | .ident .. | .other .. =>
    rw [Expr.calls] at hcall
    exact absurd hcall List.not_mem_nil
termination_by sizeOf e

theorem mem_literalsOfExprs_of_call {call : Call} {text : String} {es : List Expr}
    (hcall : call ∈ callsOfExprs es) (htext : text ∈ literalsOfExprs call.args) :
    text ∈ literalsOfExprs es := by
  match es with
  | [] =>
    rw [callsOfExprs] at hcall
    exact absurd hcall List.not_mem_nil
  | e :: rest =>
    rw [callsOfExprs, List.mem_append] at hcall
    rw [literalsOfExprs, List.mem_append]
    exact hcall.imp (mem_literals_of_call · htext) (mem_literalsOfExprs_of_call · htext)
termination_by sizeOf es

end

end AmdBundle
