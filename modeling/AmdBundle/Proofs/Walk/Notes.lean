import AmdBundle.Proofs.Walk.Account
import Mathlib.Data.List.Range

/-!
# AmdBundle.Proofs.Walk.Notes — the notes of a walk, against the program

What the notes of a walk say comes from the calls that the walk comes to: each call has its entries
(`Call.entries`), and the notes say all of them, each as often as a call has it
(`Told.entries_perm`).  Where they are said is `Orderly`: the local modules only become more, every
index is taken by one `define` call, and the list of a `define` call stands before the call itself
(`Told.orderly`).
-/

namespace AmdBundle

open Amd

/-! ### The entries of a call -/

namespace Amd

/-- What an element of a list that is not constant says. -/
def elementEntry (named : Option String) (element : Expr) : Entry :=
  match element.evaluate with
  | .string id => .single element.span id named
  | _ => .noId element.span.start

/-- What the list of a call says. -/
def listEntries (named : Option String) (list : Expr) : List Entry :=
  match list.evaluate with
  | .constArray ids => [.list list.span ids named]
  | _ =>
    match list.elements? with
    | some elements => elements.map (elementEntry named)
    | none => [.noList list.span.start]

end Amd

/-- What a call says, if the handler claims it. -/
def Call.entries (call : Call) : List Entry :=
  if call.callee = "define" then
    match DefineArgs.ofArgs? call.args with
    | some args =>
      (args.array.map Subtype.val).elim [] (listEntries args.name) ++ [.define call args]
    | none => []
  else if call.callee = "require" then
    match RequireArgs.ofArgs? call.args with
    | some (.now id) => [.need id]
    | some (.list list _) => listEntries none list.1
    | none => []
  else []

def Note.entry? : Note → Option Entry
  | script _ => none
  | said entry _ _ => some entry

def Task.calls : Task → List Call
  | nodes statements => visitedNodes statements
  | expr e => visitedExpr e
  | exprs es => es.flatMap visitedExpr
  | list e? _ => (e?.toList.filter Expr.isArray).flatMap visitedExpr
  | elements es _ => es.flatMap visitedExpr

/-- What a list, or elements of one, says besides the calls in it. -/
def Task.entries : Task → List Entry
  | list e? named => e?.elim [] (listEntries named)
  | elements es named => es.map (elementEntry named)
  | nodes _ | expr _ | exprs _ => []

theorem elementEntry_of_string {element : Expr} {id : String} (h : element.evaluate = .string id)
    (named : Option String) : elementEntry named element = .single element.span id named := by
  rw [elementEntry, h]

theorem elementEntry_of_not {element : Expr} (h : element.evaluate.isString = false)
    (named : Option String) : elementEntry named element = .noId element.span.start := by
  rw [elementEntry]
  cases helement : element.evaluate with
  | string id =>
    rw [helement] at h
    exact absurd h (by simp [Evaluated.isString])
  | constArray ids => rfl
  | dynamic => rfl

theorem listEntries_of_constArray {list : Expr} {ids : List String}
    (h : list.evaluate = .constArray ids) (named : Option String) :
    listEntries named list = [.list list.span ids named] := by
  rw [listEntries, h]

theorem listEntries_of_array {span : Span} {elements : List Expr}
    (h : (Expr.array span elements).evaluate.isConstArray = false) (named : Option String) :
    listEntries named (.array span elements) = elements.map (elementEntry named) := by
  rw [listEntries]
  cases hlist : (Expr.array span elements).evaluate with
  | constArray ids =>
    rw [hlist] at h
    exact absurd h (by simp [Evaluated.isConstArray])
  | string value => rfl
  | dynamic => rfl

theorem listEntries_of_not_array {list : Expr} (h : list.isArray = false)
    (named : Option String) : listEntries named list = [.noList list.span.start] := by
  cases list with
  | array span elements => exact absurd h (by simp [Expr.isArray])
  | _ => rfl

namespace Call

variable {call : Call}

theorem entries_of_define {args : DefineArgs call.args} (hcallee : call.callee = "define")
    (hargs : DefineArgs.ofArgs? call.args = some args) :
    call.entries =
      (args.array.map Subtype.val).elim [] (listEntries args.name) ++ [.define call args] := by
  rw [entries, if_pos hcallee, hargs]

theorem entries_of_now {id : String} (hcallee : call.callee = "require")
    (hargs : RequireArgs.ofArgs? call.args = some (.now id)) : call.entries = [.need id] := by
  rw [entries, hcallee, if_neg (by decide), if_pos rfl, hargs]

theorem entries_of_list {list : Argument call.args} {callbacks : List (Argument call.args)}
    (hcallee : call.callee = "require")
    (hargs : RequireArgs.ofArgs? call.args = some (.list list callbacks)) :
    call.entries = listEntries none list.1 := by
  rw [entries, hcallee, if_neg (by decide), if_pos rfl, hargs]

theorem entries_of_not_claimed (h : isClaimed call.callee call.args = false) :
    call.entries = [] := by
  rw [entries]
  rw [isClaimed] at h
  split
  · rename_i hdefine
    rw [if_pos hdefine, Option.isSome_eq_false_iff, Option.isNone_iff_eq_none] at h
    rw [h]
  · rename_i hdefine
    rw [if_neg hdefine] at h
    split
    · rename_i hrequire
      rw [if_pos hrequire, Option.isSome_eq_false_iff, Option.isNone_iff_eq_none] at h
      rw [h]
    · rfl

end Call

/-! ### The entries of a walk -/

/-- **Entries.**  The notes of a walk say what the calls that it comes to say, all of it and no
more. -/
theorem Told.entries_perm {task : Task} {inTry : Bool} {locals after : LocalModules}
    {notes : List Note} (h : Told task inTry locals notes after) :
    (notes.filterMap Note.entry?).Perm (task.entries ++ task.calls.flatMap Call.entries) := by
  induction h with
  | nodes_nil =>
    show [].Perm ((visitedNodes []).flatMap Call.entries)
    rw [visitedNodes]
    exact .refl _
  | nodes_expr _ _ he hrest =>
    show List.Perm _ ((visitedNodes (_ :: _)).flatMap Call.entries)
    rw [visitedNodes, List.filterMap_append, List.flatMap_append]
    exact he.append hrest
  | nodes_try _ _ _ hblock hhandler hrest =>
    show List.Perm _ ((visitedNodes (_ :: _)).flatMap Call.entries)
    rw [visitedNodes, List.filterMap_append, List.filterMap_append, List.flatMap_append,
      List.flatMap_append, List.append_assoc]
    exact hblock.append (hhandler.append hrest)
  | @atom e _ _ hatom =>
    show [].Perm ((visitedExpr e).flatMap Call.entries)
    cases e <;> simp [Expr.isAtom] at hatom <;> simp [visitedExpr]
  | function _ ih =>
    show List.Perm _ ((visitedExpr (.function _ _ _)).flatMap Call.entries)
    rw [visitedExpr]
    exact ih
  | array _ ih =>
    show List.Perm _ ((visitedExpr (.array _ _)).flatMap Call.entries)
    rw [visitedExpr_array]
    exact ih
  | @unclaimed call _ _ _ _ hclaimed _ ih =>
    show List.Perm _ ((visitedExpr call.toExpr).flatMap Call.entries)
    rw [visitedExpr_call, Call.walked, walkedArgs_of_not_claimed hclaimed,
      List.attach_map_subtype_val, List.flatMap_cons, Call.entries_of_not_claimed hclaimed]
    exact ih
  | script loader _ _ ih =>
    rw [List.filterMap_cons_none rfl]
    exact ih
  | @need call id _ _ hcallee hargs =>
    show List.Perm [Entry.need id] ((visitedExpr call.toExpr).flatMap Call.entries)
    rw [visitedExpr_call, Call.walked_of_now hcallee hargs, List.flatMap_nil,
      List.flatMap_singleton, Call.entries_of_now hcallee hargs]
  | @require call list callbacks _ _ _ _ _ _ hcallee hargs _ _ hlist hcallbacks =>
    show List.Perm _ ((visitedExpr call.toExpr).flatMap Call.entries)
    rw [visitedExpr_call, Call.walked_of_list hcallee hargs, List.flatMap_cons,
      List.flatMap_append, List.flatMap_append,
      Call.entries_of_list hcallee hargs, List.filterMap_append, ← List.append_assoc]
    exact hlist.append hcallbacks
  | @define call args _ _ _ _ notes notes' hcallee hargs _ _ hlist hbody =>
    show List.Perm _ ((visitedExpr call.toExpr).flatMap Call.entries)
    rw [visitedExpr_call, Call.walked_of_define hcallee hargs, List.flatMap_cons,
      ← Option.toList_map, List.flatMap_append, List.flatMap_append,
      Call.entries_of_define hcallee hargs, List.filterMap_append, List.filterMap_append]
    -- the call itself is said last, after what is inside it
    refine ((hlist.append hbody).append (.refl [Entry.define call args])).trans ?_
    simp only [Task.entries, Task.calls, List.nil_append, List.append_assoc]
    refine List.Perm.append_left _ ?_
    rw [← List.append_assoc]
    exact List.perm_append_comm
  | exprs_nil => exact .refl _
  | exprs_cons _ _ he hrest =>
    show List.Perm _ ((List.flatMap visitedExpr (_ :: _)).flatMap Call.entries)
    rw [List.flatMap_cons, List.flatMap_append, List.filterMap_append]
    exact he.append hrest
  | no_list => exact .refl _
  | @const_list list ids named _ _ hlist =>
    show List.Perm [Entry.list list.span ids named] (listEntries named list ++
      (([list].filter Expr.isArray).flatMap visitedExpr).flatMap Call.entries)
    have hcalls : ([list].filter Expr.isArray).flatMap visitedExpr = [] := by
      rw [List.flatMap_eq_nil_iff]
      intro e he
      obtain rfl := List.mem_singleton.mp (List.mem_of_mem_filter he)
      exact visitedExpr_of_calls_nil (Expr.calls_of_constArray hlist)
    rw [hcalls, listEntries_of_constArray hlist]
    exact .refl _
  | @mixed_list span elements named _ _ _ _ hlist _ ih =>
    show List.Perm _ (listEntries named (.array span elements) ++
      (visitedExpr (.array span elements) ++ []).flatMap Call.entries)
    rw [List.append_nil, visitedExpr_array, listEntries_of_array hlist]
    exact ih
  | @other_list list named _ _ hlist =>
    show List.Perm [Entry.noList list.span.start] (listEntries named list ++
      (([list].filter Expr.isArray).flatMap visitedExpr).flatMap Call.entries)
    rw [List.filter_cons_of_neg (by simp [hlist]), listEntries_of_not_array hlist]
    exact .refl _
  | elements_nil => exact .refl _
  | @elements_id element id rest named _ _ _ _ hid _ ih =>
    show List.Perm (Entry.single element.span id named :: _)
      (elementEntry named element :: rest.map (elementEntry named) ++
        (visitedExpr element ++ rest.flatMap visitedExpr).flatMap Call.entries)
    rw [elementEntry_of_string hid,
      visitedExpr_of_calls_nil (Expr.calls_of_literal (literal?_of_string hid))]
    exact ih.cons _
  | @elements_other element rest named _ _ _ _ notes notes' hid _ _ helement hrest =>
    show List.Perm (Entry.noId element.span.start :: (notes ++ notes').filterMap Note.entry?)
      (elementEntry named element :: rest.map (elementEntry named) ++
        (visitedExpr element ++ rest.flatMap visitedExpr).flatMap Call.entries)
    rw [elementEntry_of_not hid, List.filterMap_append, List.flatMap_append, List.cons_append]
    refine List.Perm.cons _ ?_
    refine (helement.append hrest).trans ?_
    simp only [Task.entries, Task.calls, List.nil_append]
    rw [← List.append_assoc, ← List.append_assoc]
    exact List.perm_append_comm.append_right _

/-! ### The order of the notes -/

namespace LocalModules

variable {locals mid after : LocalModules}

/-- Every local module has its place for an index. -/
def Indexed (locals : LocalModules) : Prop :=
  ∀ (i : Nat) (entry : LocalModule), locals.modules[i]? = some entry → entry.idx = i

theorem Indexed.declare (h : locals.Indexed) (name : Option String) :
    (locals.declare name).Indexed := by
  cases name with
  | none => exact h
  | some name =>
    intro i entry hentry
    have hentry : (locals.modules ++ [⟨name, locals.modules.length⟩])[i]? = some entry := hentry
    rw [List.getElem?_append] at hentry
    split at hentry
    · exact h i entry hentry
    · rename_i hi
      obtain ⟨hlt, rfl⟩ := List.getElem?_eq_some_iff.mp hentry
      rw [List.length_singleton] at hlt
      simp only [List.getElem_singleton]
      omega

theorem prefix_declare (locals : LocalModules) (name : Option String) :
    locals.modules <+: (locals.declare name).modules := by
  cases name with
  | none => exact List.prefix_rfl
  | some name => exact List.prefix_append _ _

end LocalModules

/-- The index that a note of a `define` call takes. -/
def Note.index? : Note → Option Nat
  | said (.define _ args) locals _ => (locals.declared args.name).map LocalModule.idx
  | _ => none

/-- Notes in the order that a walk takes them, between the local modules before and after. -/
structure Orderly (locals : LocalModules) (notes : List Note) (after : LocalModules) : Prop where
  /-- Local modules are only added. -/
  grows : locals.modules <+: after.modules
  /-- What was declared when a note was taken is so in the end. -/
  within : ∀ (entry : Entry) (mid : LocalModules) (inTry : Bool),
    .said entry mid inTry ∈ notes → mid.modules <+: after.modules
  indexed : locals.Indexed → after.Indexed
  /-- The indices that are taken are those of the modules that are added. -/
  indices : (notes.filterMap Note.index?).Perm
    (List.range' locals.modules.length (after.modules.length - locals.modules.length))
  /-- A constant list of a `define` call is noted before the call. -/
  lists : ∀ (call : Call) (args : DefineArgs call.args) (mid : LocalModules) (inTry : Bool),
    .said (.define call args) mid inTry ∈ notes →
      ∀ (list : Argument call.args) (ids : List String), args.array = some list →
        list.1.evaluate = .constArray ids →
          [Note.said (.list list.1.span ids args.name) (mid.declare args.name) inTry,
            .said (.define call args) mid inTry].Sublist notes

namespace Orderly

variable {locals mid after : LocalModules} {notes notes' : List Note}

theorem nil (locals : LocalModules) : Orderly locals [] locals where
  grows := List.prefix_rfl
  within _ _ _ hmem := absurd hmem List.not_mem_nil
  indexed h := h
  indices := by
    rw [Nat.sub_self]
    exact .refl _
  lists _ _ _ _ hmem := absurd hmem List.not_mem_nil

theorem append (h : Orderly locals notes mid) (h' : Orderly mid notes' after) :
    Orderly locals (notes ++ notes') after where
  grows := h.grows.trans h'.grows
  within entry mid' inTry hmem := by
    rcases List.mem_append.mp hmem with hmem | hmem
    · exact (h.within entry mid' inTry hmem).trans h'.grows
    · exact h'.within entry mid' inTry hmem
  indexed hindexed := h'.indexed (h.indexed hindexed)
  indices := by
    have hmid := h.grows.length_le
    have hafter := h'.grows.length_le
    have hsplit : List.range' locals.modules.length
          (after.modules.length - locals.modules.length) =
        List.range' locals.modules.length (mid.modules.length - locals.modules.length) ++
          List.range' mid.modules.length (after.modules.length - mid.modules.length) := by
      have hstart : mid.modules.length =
          locals.modules.length + (mid.modules.length - locals.modules.length) := by omega
      have hcount : after.modules.length - locals.modules.length =
          (mid.modules.length - locals.modules.length) +
            (after.modules.length - mid.modules.length) := by omega
      rw [hcount, ← List.range'_append_1, ← hstart]
    rw [List.filterMap_append, hsplit]
    exact h.indices.append h'.indices
  lists call args mid' inTry hmem list ids hlist hids := by
    rcases List.mem_append.mp hmem with hmem | hmem
    · exact (h.lists call args mid' inTry hmem list ids hlist hids).trans
        (List.sublist_append_left _ _)
    · exact (h'.lists call args mid' inTry hmem list ids hlist hids).trans
        (List.sublist_append_right _ _)

theorem one {note : Note} (hwithin : ∀ entry mid inTry, note = .said entry mid inTry → mid = locals)
    (hdefine : ∀ call args mid inTry, note ≠ .said (.define call args) mid inTry) :
    Orderly locals [note] locals where
  grows := List.prefix_rfl
  within entry mid inTry hmem := by
    obtain rfl := hwithin entry mid inTry (List.mem_singleton.mp hmem).symm
    exact List.prefix_rfl
  indexed h := h
  indices := by
    have hindex : note.index? = none := by
      cases note with
      | script loader => rfl
      | said entry mid inTry =>
        cases entry with
        | define call args => exact absurd rfl (hdefine call args mid inTry)
        | _ => rfl
    rw [Nat.sub_self, List.filterMap_cons_none hindex]
    exact .refl _
  lists call args mid inTry hmem :=
    absurd (List.mem_singleton.mp hmem).symm (hdefine call args mid inTry)

theorem script (h : Orderly locals notes after) (loader : String) :
    Orderly locals (.script loader :: notes) after := by
  have hone : Orderly locals [.script loader] locals := one (by simp) (by simp)
  exact hone.append h

theorem said (entry : Entry) (inTry : Bool) (hdefine : ∀ call args, entry ≠ .define call args) :
    Orderly locals [.said entry locals inTry] locals := by
  refine one (fun _ mid _ h => ?_) fun call args _ _ h => ?_
  · exact (Note.said.inj h).2.1.symm
  · exact hdefine call args (Note.said.inj h).1

/-- A `define` call declares its module before what is noted inside it, and is noted last. -/
theorem define {call : Call} {args : DefineArgs call.args} {inTry : Bool}
    (h : Orderly (locals.declare args.name) notes after)
    (hlists : ∀ (list : Argument call.args) (ids : List String), args.array = some list →
      list.1.evaluate = .constArray ids →
        .said (.list list.1.span ids args.name) (locals.declare args.name) inTry ∈ notes) :
    Orderly locals (notes ++ [.said (.define call args) locals inTry]) after where
  grows := (locals.prefix_declare args.name).trans h.grows
  within entry mid inTry' hmem := by
    rcases List.mem_append.mp hmem with hmem | hmem
    · exact h.within entry mid inTry' hmem
    · obtain ⟨-, rfl, -⟩ := Note.said.inj (List.mem_singleton.mp hmem)
      exact (LocalModules.prefix_declare _ args.name).trans h.grows
  indexed hindexed := h.indexed (hindexed.declare args.name)
  indices := by
    have hgrows := h.grows.length_le
    have hindices := h.indices
    rw [List.filterMap_append]
    cases hname : args.name with
    | none =>
      have hlast : [Note.said (.define call args) locals inTry].filterMap Note.index? = [] := by
        rw [List.filterMap_cons_none]
        · rfl
        · rw [Note.index?, hname]
          rfl
      rw [hname] at hindices
      rw [hlast, List.append_nil]
      exact hindices
    | some name =>
      have hlast : [Note.said (.define call args) locals inTry].filterMap Note.index? =
          [locals.modules.length] := by
        rw [List.filterMap_cons_some (b := locals.modules.length)]
        · rfl
        · rw [Note.index?, hname]
          rfl
      have hlength : (locals.declare args.name).modules.length = locals.modules.length + 1 := by
        rw [hname]
        exact List.length_append
      have hcount : after.modules.length - locals.modules.length =
          (after.modules.length - (locals.modules.length + 1)) + 1 := by omega
      rw [hlength] at hindices
      rw [hlast, hcount, List.range'_succ]
      exact (List.perm_append_singleton _ _).trans (hindices.cons _)
  lists other others mid inTry' hmem list ids hlist hids := by
    rcases List.mem_append.mp hmem with hmem | hmem
    · exact (h.lists other others mid inTry' hmem list ids hlist hids).trans
        (List.sublist_append_left _ _)
    · -- the same call, so the same list
      obtain ⟨hentry, rfl, rfl⟩ := Note.said.inj (List.mem_singleton.mp hmem)
      obtain ⟨rfl, hargs⟩ := Entry.define.inj hentry
      obtain rfl := eq_of_heq hargs
      have hfirst := List.singleton_sublist.mpr (hlists list ids hlist hids)
      exact hfirst.append (.refl _)

end Orderly

theorem Told.eq_of_constArray {list : Expr} {ids : List String} {named : Option String}
    {inTry : Bool} {locals after : LocalModules} {notes : List Note}
    (h : Told (.list (some list) named) inTry locals notes after)
    (hids : list.evaluate = .constArray ids) :
    notes = [.said (.list list.span ids named) locals inTry] := by
  cases h with
  | const_list hlist =>
    obtain rfl := Evaluated.constArray.inj (hids.symm.trans hlist)
    rfl
  | mixed_list hlist =>
    rw [hids] at hlist
    exact absurd hlist (by simp [Evaluated.isConstArray])
  | other_list hlist =>
    obtain ⟨span, elements, rfl, -⟩ := literals_of_constArray hids
    exact absurd hlist (by simp [Expr.isArray])

/-- **Order.**  A walk takes its notes in order. -/
theorem Told.orderly {task : Task} {inTry : Bool} {locals after : LocalModules}
    {notes : List Note} (h : Told task inTry locals notes after) : Orderly locals notes after := by
  induction h with
  | nodes_nil => exact .nil _
  | nodes_expr _ _ he hrest => exact he.append hrest
  | nodes_try _ _ _ hblock hhandler hrest => exact hblock.append (hhandler.append hrest)
  | atom => exact .nil _
  | function _ ih => exact ih
  | array _ ih => exact ih
  | unclaimed _ _ ih => exact ih
  | script loader _ _ ih => exact ih.script loader
  | need => exact .said _ _ (by simp)
  | require _ _ _ _ hlist hcallbacks => exact hlist.append hcallbacks
  | define _ _ htold _ hlist hbody =>
    refine .define (hlist.append hbody) fun list ids harray hids => ?_
    rw [harray, Option.map_some] at htold
    rw [htold.eq_of_constArray hids]
    exact List.mem_append_left _ List.mem_cons_self
  | exprs_nil => exact .nil _
  | exprs_cons _ _ he hrest => exact he.append hrest
  | no_list => exact .nil _
  | const_list => exact .said _ _ (by simp)
  | mixed_list _ _ ih => exact ih
  | other_list => exact .said _ _ (by simp)
  | elements_nil => exact .nil _
  | @elements_id element id _ named inTry locals _ _ _ _ ih =>
    have hone : Orderly locals [.said (.single element.span id named) locals inTry] locals :=
      .said _ _ (by simp)
    exact hone.append ih
  | @elements_other element _ _ inTry locals _ _ _ _ _ _ _ helement hrest =>
    have hone : Orderly locals [.said (.noId element.span.start) locals inTry] locals :=
      .said _ _ (by simp)
    exact hone.append (helement.append hrest)

end AmdBundle
