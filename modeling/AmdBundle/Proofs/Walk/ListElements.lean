import AmdBundle.Proofs.Walk.LocalModules
import Mathlib.Algebra.GroupWithZero.Nat

/-!
# AmdBundle.Proofs.Walk.ListElements — nothing in a dependency list goes unsaid

An element of a dependency list that is an array literal leaves one trace: an item in the dependency
for the whole list, an item with a place of its own, or a warning that it is no string literal.  A
list that is no array literal leaves a warning too.  `listElements_accounted` counts these over all
claimed calls of a file: as many traces as elements, and as many warnings of lists as there are such
lists.

Both counts are taken of entries.  What the notes of a walk say is what its calls say, up to order
(`Told.entries_perm`); so it is enough to count for one call (`Call.elementCount_entries`,
`Call.countP_isNoList_entries`) and for one note (`length_listed_flatMap`, `countP_warnings`).
-/

namespace AmdBundle

open Amd

/-! ### What is counted -/

namespace Dependency

/-- How many items the dependency has if it is for a whole list. -/
def itemCount : Dependency → Nat
  | array dependency => dependency.items.length
  | require _ | item _ | define _ => 0

def hasOwnRange : Dependency → Bool
  | item dependency => dependency.range.isSome
  | require _ | array _ | define _ => false

theorem length_listed (dependency : Dependency) :
    dependency.listed.length = dependency.itemCount + if dependency.hasOwnRange then 1 else 0 := by
  cases dependency with
  | item dependency =>
    cases hrange : dependency.range with
    | none => simp [listed, itemCount, hasOwnRange, hrange]
    | some span => simp [listed, itemCount, hasOwnRange, hrange]
  | array dependency => rfl
  | require id => rfl
  | define dependency => rfl

end Dependency

/-- Whether a warning is of an element that is no string literal. -/
def warnsOfElement (warning : String) : Bool := Text.endsWith warning "is not a string literal"

/-- Whether a warning is of a list that is no constant array. -/
def warnsOfList (warning : String) : Bool := Text.endsWith warning "is not a constant array"

namespace Entry

def isNoId : Entry → Bool
  | noId _ => true
  | _ => false

def isNoList : Entry → Bool
  | noList _ => true
  | _ => false

/-- How many elements of array literals the entry is for. -/
def elementCount (entry : Entry) : Nat := entry.ids.length + if entry.isNoId then 1 else 0

end Entry

/-- The table claims the call in every file of the module, whatever was recorded of it before. -/
def HookTable.Claims (table : HookTable) (identity : ModuleIdentity) (call : Call) : Prop :=
  ∀ state : FileState, state.identity = identity →
    ((table.offer call fun e _ => table.walkExpr e).runFrom state).1 = .ok .claim

def claimedCalls (program : List Node) : List Call :=
  (visitedNodes program).filter fun call => isClaimed call.callee call.args

/-! ### Endings of texts -/

theorem Text.endsWith_append (text tail : String) : endsWith (text ++ tail) tail = true := by
  rw [endsWith, List.isSuffixOf_iff_suffix, String.toList_append]
  exact List.suffix_append _ _

theorem Text.endsWith_append_of_ne (text : String) {tail other : String} {last : Char}
    (hlast : tail.toList.getLast? = some last) (hother : other.toList.getLast? ≠ some last)
    (hne : other.toList ≠ []) : endsWith (text ++ tail) other = false := by
  rw [Bool.eq_false_iff]
  intro hends
  rw [endsWith, List.isSuffixOf_iff_suffix, String.toList_append] at hends
  obtain ⟨start, hstart⟩ := hends
  have hsame := congrArg List.getLast? hstart
  rw [List.getLast?_append_of_ne_nil _ hne, List.getLast?_append, hlast] at hsame
  exact hother hsame

/-! ### The entries of one call -/

section Entries

variable {named : Option String} {list : Expr}

theorem elementCount_elementEntry (element : Expr) :
    (elementEntry named element).elementCount = 1 := by
  rw [elementEntry]
  split <;> rfl

theorem isNoList_elementEntry (element : Expr) :
    (elementEntry named element).isNoList = false := by
  rw [elementEntry]
  split <;> rfl

theorem sum_elementCount_map_elementEntry (elements : List Expr) :
    ((elements.map (elementEntry named)).map Entry.elementCount).sum = elements.length := by
  have hone : Entry.elementCount ∘ elementEntry named = fun _ => 1 :=
    funext elementCount_elementEntry
  rw [List.map_map, hone, List.map_const', List.sum_replicate_nat, Nat.mul_one]

theorem sum_elementCount_listEntries :
    ((listEntries named list).map Entry.elementCount).sum =
      (list.elements?.map List.length).getD 0 := by
  cases hconst : list.evaluate.isConstArray with
  | true =>
    obtain ⟨ids, hids⟩ := exists_of_isConstArray hconst
    obtain ⟨span, elements, rfl, hall⟩ := literals_of_constArray hids
    have hlength : elements.length = ids.length := length_of_mapM_literal? hall
    rw [listEntries_of_constArray hids]
    exact hlength.symm
  | false =>
    cases list with
    | array span elements =>
      rw [listEntries_of_array hconst]
      exact sum_elementCount_map_elementEntry elements
    | _ =>
      rw [listEntries_of_not_array rfl]
      rfl

theorem countP_isNoList_listEntries :
    (listEntries named list).countP Entry.isNoList = if list.isArray then 0 else 1 := by
  cases hconst : list.evaluate.isConstArray with
  | true =>
    obtain ⟨ids, hids⟩ := exists_of_isConstArray hconst
    obtain ⟨span, elements, rfl, -⟩ := literals_of_constArray hids
    rw [listEntries_of_constArray hids]
    rfl
  | false =>
    cases list with
    | array span elements =>
      rw [listEntries_of_array hconst, List.countP_map]
      have hnone : Entry.isNoList ∘ elementEntry named = fun _ => false :=
        funext isNoList_elementEntry
      rw [hnone, List.countP_false]
      rfl
    | _ =>
      rw [listEntries_of_not_array rfl]
      rfl

end Entries

namespace Call

variable {call : Call}

/-- What a call says is what its dependency list says, and besides that nothing of a list. -/
theorem exists_entries_eq (call : Call) :
    ∃ named rest, call.entries = call.dependencyList?.elim [] (listEntries named) ++ rest ∧
      ∀ entry ∈ rest, entry.elementCount = 0 ∧ entry.isNoList = false := by
  -- besides its list a call says only itself or an id that it needs, and neither counts
  by_cases hdefine : call.callee = "define"
  · cases hargs : DefineArgs.ofArgs? call.args with
    | none =>
      refine ⟨none, [], ?_, by simp⟩
      rw [entries, dependencyList?, if_pos hdefine, if_pos hdefine, hargs]
      rfl
    | some args =>
      refine ⟨args.name, [.define call args], ?_, ?_⟩
      · rw [entries_of_define hdefine hargs, dependencyList?, if_pos hdefine, hargs]
        rfl
      · intro entry hentry
        rw [List.mem_singleton.mp hentry]
        exact ⟨rfl, rfl⟩
  · by_cases hrequire : call.callee = "require"
    · cases hargs : RequireArgs.ofArgs? call.args with
      | none =>
        refine ⟨none, [], ?_, by simp⟩
        rw [entries, dependencyList?, if_neg hdefine, if_neg hdefine, if_pos hrequire,
          if_pos hrequire, hargs]
        rfl
      | some args =>
        cases args with
        | now id =>
          refine ⟨none, [.need id], ?_, ?_⟩
          · rw [entries_of_now hrequire hargs, dependencyList?, if_neg hdefine, if_pos hrequire,
              hargs]
            rfl
          · intro entry hentry
            rw [List.mem_singleton.mp hentry]
            exact ⟨rfl, rfl⟩
        | list list callbacks =>
          refine ⟨none, [], ?_, by simp⟩
          rw [entries_of_list hrequire hargs, dependencyList?, if_neg hdefine, if_pos hrequire,
            hargs, List.append_nil]
          rfl
    · refine ⟨none, [], ?_, by simp⟩
      rw [entries, dependencyList?, if_neg hdefine, if_neg hdefine, if_neg hrequire,
        if_neg hrequire]
      rfl

theorem elementCount_entries (call : Call) :
    (call.entries.map Entry.elementCount).sum =
      ((call.dependencyList?.bind Expr.elements?).map List.length).getD 0 := by
  obtain ⟨named, rest, hentries, hrest⟩ := call.exists_entries_eq
  have hnone : (rest.map Entry.elementCount).sum = 0 := by
    rw [List.sum_eq_zero_iff_forall_eq_nat]
    intro count hcount
    obtain ⟨entry, hentry, rfl⟩ := List.mem_map.mp hcount
    exact (hrest entry hentry).1
  rw [hentries, List.map_append, List.sum_append, hnone, Nat.add_zero]
  cases call.dependencyList? with
  | none => rfl
  | some list => exact sum_elementCount_listEntries

theorem countP_isNoList_entries (call : Call) :
    call.entries.countP Entry.isNoList =
      call.dependencyList?.toList.countP fun list => !list.isArray := by
  obtain ⟨named, rest, hentries, hrest⟩ := call.exists_entries_eq
  have hnone : rest.countP Entry.isNoList = 0 := by
    rw [List.countP_eq_zero]
    intro entry hentry
    rw [(hrest entry hentry).2]
    exact Bool.false_ne_true
  rw [hentries, List.countP_append, hnone, Nat.add_zero]
  cases call.dependencyList? with
  | none => rfl
  | some list =>
    refine countP_isNoList_listEntries.trans ?_
    cases harray : list.isArray <;> simp [harray]

theorem dependencyList?_of_not_claimed (h : isClaimed call.callee call.args = false) :
    call.dependencyList? = none := by
  rw [isClaimed] at h
  rw [dependencyList?]
  split
  · rename_i hdefine
    rw [if_pos hdefine, Option.isSome_eq_false_iff, Option.isNone_iff_eq_none] at h
    rw [h]
    rfl
  · rename_i hdefine
    rw [if_neg hdefine] at h
    split
    · rename_i hrequire
      rw [if_pos hrequire, Option.isSome_eq_false_iff, Option.isNone_iff_eq_none] at h
      rw [h]
    · rfl

end Call

/-! ### The entries of many calls -/

theorem sum_elementCount_flatMap (calls : List Call) :
    ((calls.flatMap Call.entries).map Entry.elementCount).sum =
      (((calls.filterMap Call.dependencyList?).filterMap Expr.elements?).map List.length).sum := by
  induction calls with
  | nil => rfl
  | cons call calls ih =>
    rw [List.flatMap_cons, List.map_append, List.sum_append, ih, call.elementCount_entries]
    cases hlist : call.dependencyList? with
    | none =>
      rw [List.filterMap_cons_none hlist]
      exact Nat.zero_add _
    | some list =>
      rw [List.filterMap_cons_some hlist]
      cases helements : list.elements? with
      | none =>
        rw [List.filterMap_cons_none helements, Option.bind_some, helements]
        exact Nat.zero_add _
      | some elements =>
        rw [List.filterMap_cons_some helements, Option.bind_some, helements, List.map_cons,
          List.sum_cons]
        rfl

theorem countP_isNoList_flatMap (calls : List Call) :
    (calls.flatMap Call.entries).countP Entry.isNoList =
      (calls.filterMap Call.dependencyList?).countP fun list => !list.isArray := by
  induction calls with
  | nil => rfl
  | cons call calls ih =>
    rw [List.flatMap_cons, List.countP_append, ih, call.countP_isNoList_entries,
      List.filterMap_eq_flatMap_toList, List.filterMap_eq_flatMap_toList, List.flatMap_cons,
      List.countP_append]

theorem filterMap_dependencyList?_claimedCalls (program : List Node) :
    (claimedCalls program).filterMap Call.dependencyList? =
      (visitedNodes program).filterMap Call.dependencyList? := by
  rw [claimedCalls, List.filterMap_filter]
  refine List.filterMap_congr fun call _ => ?_
  cases hclaimed : isClaimed call.callee call.args with
  | true => rw [if_pos rfl]
  | false => rw [if_neg Bool.false_ne_true, Call.dependencyList?_of_not_claimed hclaimed]

/-! ### What is recorded for notes -/

section Notes

variable {m : Manner}

theorem length_listed_flatMap (notes : List Note) :
    ((notes.flatMap (Note.dependencies m)).map Dependency.itemCount).sum +
        (notes.flatMap (Note.dependencies m)).countP Dependency.hasOwnRange =
      ((notes.filterMap Note.entry?).flatMap Entry.ids).length := by
  rw [(forall₂_listed_flatMap notes).length_eq]
  induction notes.flatMap (Note.dependencies m) with
  | nil => rfl
  | cons dependency dependencies ih =>
    rw [List.flatMap_cons, List.length_append, ← ih, dependency.length_listed, List.map_cons,
      List.sum_cons, List.countP_cons]
    omega

theorem warnsOfElement_noId (start : String) :
    warnsOfElement (start ++ "is not a string literal") = true ∧
      warnsOfList (start ++ "is not a string literal") = false :=
  ⟨Text.endsWith_append _ _, Text.endsWith_append_of_ne _ rfl (by decide) (by decide)⟩

theorem warnsOfList_noList (start : String) :
    warnsOfElement (start ++ "is not a constant array") = false ∧
      warnsOfList (start ++ "is not a constant array") = true :=
  ⟨Text.endsWith_append_of_ne _ rfl (by decide) (by decide), Text.endsWith_append _ _⟩

theorem Entry.countP_warnings (entry : Entry) (m : Manner) :
    (entry.warnings m).countP warnsOfElement = (if entry.isNoId then 1 else 0) ∧
      (entry.warnings m).countP warnsOfList = (if entry.isNoList then 1 else 0) ∧
      (entry.warnings m).length =
        (if entry.isNoId then 1 else 0) + if entry.isNoList then 1 else 0 := by
  cases entry with
  | noId place =>
    obtain ⟨helement, hlist⟩ := warnsOfElement_noId
      (m.identity.request ++ ": " ++ "dependency" ++ " at " ++ placeText place ++ " ")
    simp [warnings, isNoId, isNoList, helement, hlist]
  | noList place =>
    obtain ⟨helement, hlist⟩ := warnsOfList_noList
      (m.identity.request ++ ": " ++ "dependency list" ++ " at " ++ placeText place ++ " ")
    simp [warnings, isNoId, isNoList, helement, hlist]
  | _ => exact ⟨rfl, rfl, rfl⟩

theorem countP_warnings (notes : List Note) :
    (notes.flatMap (Note.warnings m)).countP warnsOfElement =
        (notes.filterMap Note.entry?).countP Entry.isNoId ∧
      (notes.flatMap (Note.warnings m)).countP warnsOfList =
        (notes.filterMap Note.entry?).countP Entry.isNoList ∧
      (notes.flatMap (Note.warnings m)).length =
        (notes.filterMap Note.entry?).countP Entry.isNoId +
          (notes.filterMap Note.entry?).countP Entry.isNoList := by
  induction notes with
  | nil => exact ⟨rfl, rfl, rfl⟩
  | cons note notes ih =>
    cases note with
    | script loader => exact ih
    | said entry locals inTry =>
      obtain ⟨helement, hlist, hlength⟩ := ih
      obtain ⟨helement', hlist', hlength'⟩ := entry.countP_warnings m
      have hcons : (Note.said entry locals inTry :: notes).filterMap Note.entry? =
          entry :: notes.filterMap Note.entry? := rfl
      rw [hcons, List.flatMap_cons, List.countP_append, List.countP_append, List.length_append,
        List.countP_cons, List.countP_cons, Note.warnings, helement, hlist, hlength, helement',
        hlist', hlength']
      omega

/-- The elements that entries are for: their ids, and what is no id. -/
theorem sum_elementCount (entries : List Entry) :
    (entries.map Entry.elementCount).sum =
      (entries.flatMap Entry.ids).length + entries.countP Entry.isNoId := by
  induction entries with
  | nil => rfl
  | cons entry entries ih =>
    rw [List.map_cons, List.sum_cons, ih, List.flatMap_cons, List.length_append, List.countP_cons,
      Entry.elementCount]
    omega

end Notes

theorem AmdPlugin.claims_iff {parts : List AmdPlugin} {kind : DefineKind}
    (hparts : .handler ∈ parts) (identity : ModuleIdentity) (call : Call) :
    (table parts kind).Claims identity call ↔ isClaimed call.callee call.args = true := by
  constructor
  · intro hclaims
    by_contra hnot
    rw [Bool.not_eq_true] at hnot
    have hoffer : ((table parts kind).offer call fun e _ => (table parts kind).walkExpr e).Tells
        (manner parts kind identity) (scripts call) fun verdict => verdict = .pass :=
      tells_offer_unclaimed hparts hnot
    obtain ⟨verdict, after, notes, hrun, rfl, -, -⟩ := hoffer { identity } rfl
    have hclaim := hclaims { identity } rfl
    rw [hrun] at hclaim
    exact absurd (Except.ok.inj hclaim) (by decide)
  · intro hclaimed state hidentity
    have hoffer : ((table parts kind).offer call fun e _ => (table parts kind).walkExpr e).Tells
        (manner parts kind identity) (Told (.expr call.toExpr)) fun verdict => verdict = .claim :=
      tells_offer_claimed hparts (fun e _ => tells_walkExpr hparts e) hclaimed
    obtain ⟨verdict, after, notes, hrun, rfl, -, -⟩ := hoffer state hidentity
    rw [hrun]

/-- **Elements.**  A walk over a file succeeds, by the host alone or with the loader's plugins.  It
comes to the calls that `visitedNodes` lists and claims those of them that `isClaimed` tells.  Over
the dependency lists of these calls:

* the array literals have as many elements as there are items in the dependencies for whole lists,
  items that are replaced where they stand, and warnings of elements that are no string literals;
* there are as many warnings of lists that are no constant arrays as there are lists that are no
  array literals.

There are no other warnings, and none is both. -/
theorem listElements_accounted (plugin? : Option DojoPlugin) (identity : ModuleIdentity)
    (program : List Node) :
    let lists := (claimedCalls program).filterMap Call.dependencyList?
    (∀ wire : Call → Bool, (DojoPlugin.hooks plugin?).ComesTo wire program { identity } ↔
      (visitedNodes program).any wire = true) ∧
    (∀ call : Call, (DojoPlugin.hooks plugin?).Claims identity call ↔
      isClaimed call.callee call.args = true) ∧
    ∃ after,
      FileState.walk (DojoPlugin.hooks plugin?) program { identity } = (.ok (), after) ∧
      ((lists.filterMap Expr.elements?).map List.length).sum =
        (after.dependencies.map Dependency.itemCount).sum +
          after.dependencies.countP Dependency.hasOwnRange +
          after.warnings.countP warnsOfElement ∧
      after.warnings.countP warnsOfList = lists.countP (fun list => !list.isArray) ∧
      after.warnings.length =
        after.warnings.countP warnsOfElement + after.warnings.countP warnsOfList := by
  intro lists
  obtain ⟨parts, kind, hparts, htable⟩ := DojoPlugin.exists_hooks_eq plugin?
  obtain ⟨after, notes, hwalk, htold, hdependencies, hwarnings⟩ :=
    AmdPlugin.exists_told_walk hparts kind identity program
  -- the notes say what the calls say, so both counts may be taken of the calls
  have hperm : (notes.filterMap Note.entry?).Perm
      ((visitedNodes program).flatMap Call.entries) := htold.entries_perm
  have hlists : lists = (visitedNodes program).filterMap Call.dependencyList? :=
    filterMap_dependencyList?_claimedCalls program
  obtain ⟨helement, hlist, hlength⟩ :
      (notes.flatMap (Note.warnings (AmdPlugin.manner parts kind identity))).countP _ = _ ∧ _ :=
    countP_warnings notes
  rw [htable]
  refine ⟨fun wire => AmdPlugin.comesTo_iff { identity } program hparts,
    AmdPlugin.claims_iff hparts identity, after, hwalk, ?_, ?_, ?_⟩
  · rw [hdependencies, hwarnings, helement, length_listed_flatMap, ← sum_elementCount,
      (hperm.map Entry.elementCount).sum_nat, sum_elementCount_flatMap, hlists]
  · rw [hwarnings, hlist, hperm.countP_eq, countP_isNoList_flatMap, hlists]
  · rw [hwarnings, hlength, helement, hlist]

/-- A list with a name in it, in whose place an element is a call with a computed list. -/
example :
    let after := (FileState.walk (DojoPlugin.hooks none)
      [.expr <| .call 1 {} "require" [.array {} [.str {} "a", .ident {} "b",
        .call 0 {} "require" [.ident {} "deps", .function {} [] []]]]] {}).2
    (after.dependencies.map Dependency.itemCount,
      after.dependencies.map Dependency.hasOwnRange,
      after.warnings.map warnsOfElement) = ([0], [true], [true, true, false]) := by
  decide +kernel

end AmdBundle
