import AmdBundle.Proofs.Walk.LocalModules

/-!
# AmdBundle.Proofs.Walk.Bindings — the names that a `define` call gives to parameters

A `define` call with a constant list gives names to the parameters of its function, by the places of
the pseudo-modules in the list.  The same places stand in the dependency for the whole list, which
generated code puts in place of the list, so that a parameter gets a name exactly where its argument
is the pseudo-module of that name.  `bindings_byPosition` tells this of every `define` call that a
walk comes to, and of every state that a list can be added to.
-/

namespace AmdBundle

open Amd

/-! ### `define` calls and what is recorded for them -/

def Dependency.defineParts? : Dependency → Option DefineParts
  | define dependency => some dependency.parts
  | _ => none

/-- The call is a `define` call that the handler claims. -/
def Call.isClaimedDefine (call : Call) : Bool := call.isDefine && isClaimed call.callee call.args

def Entry.call? : Entry → Option Call
  | define call _ => some call
  | _ => none

/-- The parameters of a `define` call have names exactly at the places of the pseudo-modules in the
list. -/
structure DefineParts.NamesFrom (parts : DefineParts) (list : ArrayDependency) : Prop where
  length : parts.paramBindings.length = list.items.length
  names : ∀ (i : Nat) (name : String), parts.paramBindings[i]? = some (some name) ↔
    ∃ known expression, list.items[i]? = some (.pseudo known expression) ∧ known.id = name

/-- Of a call with a constant list, the list is recorded first, with an item for each id, and then
the parts, which have the names from that list. -/
structure Call.Binds (call : Call) (dependencies : List Dependency) (parts : DefineParts) :
    Prop where
  range : parts.range = call.span
  names : ∀ (list : Expr) (ids : List String), call.dependencyList? = some list →
    list.evaluate = .constArray ids →
      ∃ array kind,
        [.array array, .define ⟨kind, parts, call.span⟩].Sublist dependencies ∧
        array.range = list.span ∧
        List.Forall₂ (fun id item => item.IsFor id) ids array.items ∧
        list.elements?.map List.length = some parts.paramBindings.length ∧
        parts.NamesFrom array

/-! ### Names by position -/

theorem getElem?_map_bound?_iff {ids : List String} {items : List AmdItem}
    (h : List.Forall₂ (fun id item => item.IsFor id) ids items) (i : Nat) (name : String) :
    (ids.map PseudoModule.bound?)[i]? = some (some name) ↔
      ∃ known expression, items[i]? = some (.pseudo known expression) ∧ known.id = name := by
  induction h generalizing i with
  | nil => simp
  | @cons id item ids items hfor _ ih =>
    cases i with
    | zero =>
      simp only [List.map_cons, List.getElem?_cons_zero, Option.some.injEq]
      rw [PseudoModule.bound?_eq_some_iff]
      constructor
      · rintro ⟨known, hid, hname⟩
        obtain ⟨expression, hitem⟩ := hfor.exists_pseudo_iff.mpr hid
        exact ⟨known, expression, hitem, hname⟩
      · rintro ⟨known, expression, hitem, hname⟩
        exact ⟨known, hfor.exists_pseudo_iff.mp ⟨expression, hitem⟩, hname⟩
    | succ i => exact ih i

theorem DefineParts.namesFrom_of_forall₂ {parts : DefineParts} {list : ArrayDependency}
    {ids : List String} (hparts : parts.paramBindings = ids.map PseudoModule.bound?)
    (h : List.Forall₂ (fun id item => item.IsFor id) ids list.items) : parts.NamesFrom list where
  length := by rw [hparts, List.length_map, h.length_eq]
  names i name := by
    rw [hparts]
    exact getElem?_map_bound?_iff h i name

/-! ### The calls that are recorded -/

theorem filterMap_call?_listEntries (named : Option String) (list : Expr) :
    (listEntries named list).filterMap Entry.call? = [] := by
  rw [listEntries]
  split
  · rfl
  · split
    · rw [List.filterMap_map, List.filterMap_eq_nil_iff]
      intro element _
      rw [Function.comp_apply, elementEntry]
      split <;> rfl
    · rfl

theorem Call.filterMap_call?_entries (call : Call) :
    call.entries.filterMap Entry.call? = (Option.guard Call.isClaimedDefine call).toList := by
  rw [entries, Option.guard, isClaimedDefine, isDefine, isClaimed]
  by_cases hdefine : call.callee = "define"
  · rw [if_pos hdefine, if_pos hdefine, hdefine]
    cases hargs : DefineArgs.ofArgs? call.args with
    | none => rfl
    | some args =>
      have hbefore : ((args.array.map Subtype.val).elim [] (listEntries args.name)).filterMap
          Entry.call? = [] := by
        cases args.array.map Subtype.val with
        | none => rfl
        | some list => exact filterMap_call?_listEntries args.name list
      rw [List.filterMap_append, hbefore]
      rfl
  · rw [if_neg hdefine, beq_eq_false_iff_ne.mpr hdefine, Bool.false_and]
    split
    · split
      · rfl
      · exact filterMap_call?_listEntries none _
      · rfl
    · rfl

theorem not_mem_listEntries {named : Option String} {list : Expr} {call : Call}
    {args : DefineArgs call.args} : Entry.define call args ∉ listEntries named list := by
  intro hmem
  have hcall : call ∈ (listEntries named list).filterMap Entry.call? :=
    List.mem_filterMap.mpr ⟨_, hmem, rfl⟩
  rw [filterMap_call?_listEntries] at hcall
  exact List.not_mem_nil hcall

theorem Call.of_define_mem_entries {call other : Call} {args : DefineArgs other.args}
    (h : .define other args ∈ call.entries) :
    other.callee = "define" ∧ DefineArgs.ofArgs? other.args = some args := by
  rw [entries] at h
  split at h
  · rename_i hdefine
    cases hargs : DefineArgs.ofArgs? call.args with
    | none =>
      rw [hargs] at h
      exact absurd h List.not_mem_nil
    | some parts =>
      rw [hargs] at h
      rcases List.mem_append.mp h with hlist | hlast
      · cases harray : parts.array.map Subtype.val with
        | none =>
          rw [harray] at hlist
          exact absurd hlist List.not_mem_nil
        | some list =>
          rw [harray] at hlist
          exact absurd hlist not_mem_listEntries
      · obtain ⟨rfl, hparts⟩ := Entry.define.inj (List.mem_singleton.mp hlast)
        obtain rfl := eq_of_heq hparts
        exact ⟨hdefine, hargs⟩
  · split at h
    · split at h
      · exact absurd (List.mem_singleton.mp h) (by simp)
      · exact absurd h not_mem_listEntries
      · exact absurd h List.not_mem_nil
    · exact absurd h List.not_mem_nil

theorem Told.calls_perm {program : List Node} {inTry : Bool} {locals after : LocalModules}
    {notes : List Note} (h : Told (.nodes program) inTry locals notes after) :
    ((notes.filterMap Note.entry?).filterMap Entry.call?).Perm
      ((visitedNodes program).filter Call.isClaimedDefine) := by
  have hentries : (notes.filterMap Note.entry?).Perm
      ((visitedNodes program).flatMap Call.entries) := h.entries_perm
  have hcalls : ((visitedNodes program).flatMap Call.entries).filterMap Entry.call? =
      (visitedNodes program).filter Call.isClaimedDefine := by
    rw [List.filterMap_flatMap, ← List.filterMap_eq_filter, List.filterMap_eq_flatMap_toList]
    exact List.flatMap_congr fun call _ => call.filterMap_call?_entries
  rw [← hcalls]
  exact hentries.filterMap Entry.call?

theorem Told.of_define_mem {program : List Node} {inTry inTry' : Bool}
    {locals mid after : LocalModules} {notes : List Note} {call : Call}
    {args : DefineArgs call.args} (h : Told (.nodes program) inTry locals notes after)
    (hmem : .said (.define call args) mid inTry' ∈ notes) :
    call.callee = "define" ∧ DefineArgs.ofArgs? call.args = some args := by
  have hentry : Entry.define call args ∈ notes.filterMap Note.entry? :=
    List.mem_filterMap.mpr ⟨_, hmem, rfl⟩
  have hsaid : Entry.define call args ∈ (visitedNodes program).flatMap Call.entries :=
    h.entries_perm.subset hentry
  obtain ⟨other, -, hother⟩ := List.mem_flatMap.mp hsaid
  exact Call.of_define_mem_entries hother

/-- The parts that are recorded for a `define` call where the local modules are known. -/
def Call.recordedParts (call : Call) (args : DefineArgs call.args) (locals : LocalModules) :
    DefineParts where
  range := call.span
  arrayRange := args.arrayRange
  functionRange := args.bodyRange true
  objectRange := args.bodyRange false
  localModule := locals.declared args.name
  paramBindings := args.array.elim [] fun list => boundNames list.1

/-- What relates each `define` call to the parts recorded for it relates all of them, in order. -/
theorem forall₂_defineParts? {m : Manner} {related : Call → DefineParts → Prop} {notes : List Note}
    (h : ∀ call args locals inTry, .said (.define call args) locals inTry ∈ notes →
      related call (call.recordedParts args locals)) :
    List.Forall₂ related ((notes.filterMap Note.entry?).filterMap Entry.call?)
      ((notes.flatMap (Note.dependencies m)).filterMap Dependency.defineParts?) := by
  induction notes with
  | nil => exact .nil
  | cons note notes ih =>
    have hrest := ih fun call args locals inTry hmem =>
      h call args locals inTry (List.mem_cons_of_mem _ hmem)
    rw [List.flatMap_cons, List.filterMap_append]
    cases note with
    | script loader => exact hrest
    | said entry locals inTry =>
      cases entry with
      | define call args => exact .cons (h call args locals inTry List.mem_cons_self) hrest
      | list span ids named =>
        have hnone : (Note.dependencies m (.said (.list span ids named) locals inTry)).filterMap
            Dependency.defineParts? = [] :=
          Entry.filterMap_dependencies_list (fun _ => rfl) (fun _ => rfl) m locals inTry span ids
            named
        rw [hnone]
        exact hrest
      | _ => exact hrest

/-! ### The list of a call, and the call -/

theorem Call.array_of_dependencyList? {call : Call} {args : DefineArgs call.args} {list : Expr}
    (hcallee : call.callee = "define") (hargs : DefineArgs.ofArgs? call.args = some args)
    (hlist : call.dependencyList? = some list) :
    ∃ argument, args.array = some argument ∧ argument.1 = list := by
  rw [dependencyList?, if_pos hcallee, hargs] at hlist
  exact Option.map_eq_some_iff.mp hlist

/-- Notes in order say the list of a `define` call before the call, and so it is recorded. -/
theorem Orderly.binds {m : Manner} {locals after mid : LocalModules} {notes : List Note}
    {call : Call} {args : DefineArgs call.args} {inTry : Bool} (h : Orderly locals notes after)
    (hcallee : call.callee = "define") (hargs : DefineArgs.ofArgs? call.args = some args)
    (hmem : .said (.define call args) mid inTry ∈ notes) :
    call.Binds (notes.flatMap (Note.dependencies m)) (call.recordedParts args mid) where
  range := rfl
  names list ids hlist hids := by
    obtain ⟨argument, harray, rfl⟩ := Call.array_of_dependencyList? hcallee hargs hlist
    obtain ⟨items, hitems, -, hall⟩ := Entry.dependencies_list m (mid.declare args.name) inTry
      argument.1.span ids args.name
    have hbindings : (call.recordedParts args mid).paramBindings = ids.map PseudoModule.bound? := by
      rw [Call.recordedParts, harray]
      exact boundNames_of_constArray hids
    refine ⟨⟨items, argument.1.span, argument.1.span, inTry⟩, m.kind, ?_, rfl, hitems, ?_,
      DefineParts.namesFrom_of_forall₂ hbindings hitems⟩
    · have hnotes := h.lists call args mid inTry hmem argument ids harray hids
      refine List.Sublist.trans ?_ (hnotes.flatMap (Note.dependencies m))
      rw [List.flatMap_cons, List.flatMap_singleton, Note.dependencies, hall, List.append_assoc]
      exact List.sublist_append_right _ _
    · obtain ⟨span, elements, hlist, hliterals⟩ := literals_of_constArray hids
      rw [hlist, hbindings, List.length_map, ← length_of_mapM_literal? hliterals]
      rfl

/-- **Names by position.**  Adding a list to a file, in whatever state, records an item for each id
at its place, and names the slots at the places of the pseudo-modules and no others.

So a walk over a file, which succeeds by the host alone or with the loader's plugins, has the parts
of each `define` call that it comes to and the handler claims, once.  If the list of the call is
constant, the parts have one name or none for each of its elements, and a name exactly where the
item of the recorded list is the pseudo-module of that name. -/
theorem bindings_byPosition :
    (∀ (state : FileState) (ids : List String) (span : Span) (slots : Slots)
        (named : Option String) (render : Render),
      state.AddsList ids span slots named render
        (state.addArray ids span slots named render).1
        (state.addArray ids span slots named render).2) ∧
    ∀ (plugin? : Option DojoPlugin) (identity : ModuleIdentity) (program : List Node),
      ∃ (after : FileState) (calls : List Call),
        FileState.walk (DojoPlugin.hooks plugin?) program { identity } = (.ok (), after) ∧
        calls.Perm ((visitedNodes program).filter Call.isClaimedDefine) ∧
        List.Forall₂ (fun call parts => call.Binds after.dependencies parts) calls
          (after.dependencies.filterMap Dependency.defineParts?) := by
  refine ⟨FileState.addsList_addArray, fun plugin? identity program => ?_⟩
  obtain ⟨parts, kind, hparts, htable⟩ := DojoPlugin.exists_hooks_eq plugin?
  obtain ⟨after, notes, hwalk, htold, hdependencies, -⟩ :=
    AmdPlugin.exists_told_walk hparts kind identity program
  rw [htable]
  refine ⟨after, _, hwalk, htold.calls_perm, ?_⟩
  rw [hdependencies]
  refine forall₂_defineParts? fun call args locals inTry hmem => ?_
  obtain ⟨hcallee, hargs⟩ := htold.of_define_mem hmem
  exact htold.orderly.binds hcallee hargs hmem

/-- A call with a name, whose list has two pseudo-modules and refers to the call itself, and a call
in its body whose list is not constant. -/
example :
    (FileState.walk (DojoPlugin.hooks none)
      [.expr <| .call 1 {} "define" [.str {} "a", .array {} [.str {} "require", .str {} "a",
          .str {} "exports"], .function {} ["r", "a", "e"] [.expr <| .call 0 {} "define" [
            .array {} [.str {} "module", .ident {} "b"], .function {} [] []]]]]
      {}).2.dependencies.filterMap (fun dependency =>
        dependency.defineParts?.map DefineParts.paramBindings) =
    [[none, none], [some "require", none, some "exports"]] := by decide +kernel

end AmdBundle
