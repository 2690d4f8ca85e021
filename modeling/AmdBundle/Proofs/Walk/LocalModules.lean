import AmdBundle.Proofs.Walk.Notes
import AmdBundle.Proofs.Walk.References
import AmdBundle.Proofs.Walk.Telling
import Mathlib.Data.List.Forall2

/-!
# AmdBundle.Proofs.Walk.LocalModules — the local modules of a file and what refers to them

The ids in the dependency lists of a file, against the modules that its named `define` calls
declare.  An item that refers to a local module refers to the first one of its name, though others
of the name may be declared later; an id of a pseudo-module never does, though a module of that name
may be declared; and each declared module belongs to one `define` call (`walk_localModules`).

An id is looked up among the modules declared so far.  That the answer stays right is the matter of
`Orderly.within`: the first module of a name in the beginning of a list is the first in all of it.
-/

namespace AmdBundle

open Amd

/-! ### What is asked of dependencies -/

namespace Dependency

def items : Dependency → List AmdItem
  | item dependency => [dependency.item]
  | array dependency => dependency.items
  | require _ | define _ => []

/-- The items that stand for elements of lists.  An entry of a constant list is one of them in the
dependency for the whole list, and not on its own again. -/
def listed : Dependency → List AmdItem
  | item dependency => if dependency.range.isSome then [dependency.item] else []
  | array dependency => dependency.items
  | require _ | define _ => []

/-- The index of the local module that a `define` call declares, if it declares one. -/
def index? : Dependency → Option Nat
  | define dependency => dependency.parts.localModule.map LocalModule.idx
  | _ => none

end Dependency

def Entry.ids : Entry → List String
  | list _ ids _ => ids
  | single _ id _ => [id]
  | _ => []

/-- The string literals in the dependency list of a call, if the handler claims the call. -/
def Call.listedIds (call : Call) : List String := call.entries.flatMap Entry.ids

/-- The module stands at its index, and no other of its name before it. -/
def LocalModules.IsFirst (locals : LocalModules) (entry : LocalModule) : Prop :=
  locals.modules[entry.idx]? = some entry ∧
    ∀ (i : Nat) (other : LocalModule), locals.modules[i]? = some other →
      other.name = entry.name → entry.idx ≤ i

/-! ### Looking up a module -/

section Lookup

variable {locals after : LocalModules} {id : String} {named : Option String} {entry : LocalModule}

/-- What is found among the modules declared so far is the first of its name in the end. -/
theorem LocalModules.isFirst_of_get? (hget : locals.get? id named = some entry)
    (hgrows : locals.modules <+: after.modules) (hindexed : after.Indexed) :
    after.IsFirst entry := by
  have hfind : after.modules.find? (fun other => other.name == fullName id named) = some entry :=
    hgrows.find?_eq_some hget
  obtain ⟨hname, place, hplace, hentry, hbefore⟩ := List.find?_eq_some_iff_getElem.mp hfind
  have hat : after.modules[place]? = some entry := by
    rw [List.getElem?_eq_getElem hplace, hentry]
  obtain rfl : entry.idx = place := hindexed place entry hat
  refine ⟨hat, fun i other hother hsame => ?_⟩
  obtain ⟨hi, hothereq⟩ := List.getElem?_eq_some_iff.mp hother
  by_contra hlt
  have hnot := hbefore i (by omega)
  rw [hothereq, hsame, hname] at hnot
  exact Bool.false_ne_true hnot

theorem FileState.get?_of_classify {state : FileState} {render : Render}
    (h : state.classify id named render = .localModule entry) :
    state.locals.get? id named = some entry := by
  unfold classify at h
  cases hpseudo : PseudoModule.ofId? id with
  | some known => simp [hpseudo] at h
  | none =>
    rw [hpseudo] at h
    dsimp only at h
    cases hget : state.locals.get? id named with
    | none => simp [hget] at h
    | some other =>
      rw [hget] at h
      rw [AmdItem.localModule.inj h]

end Lookup

/-! ### What is recorded for an entry -/

namespace Entry

variable {m : Manner} {locals : LocalModules} {inTry : Bool} {entry : Entry}
  {dependency : Dependency} {item : AmdItem}

theorem dependencies_list (m : Manner) (locals : LocalModules) (inTry : Bool) (span : Span)
    (ids : List String) (named : Option String) :
    ∃ items : List AmdItem, List.Forall₂ (fun id item => item.IsFor id) ids items ∧
      (∀ item ∈ items, ∀ entry, item = .localModule entry →
        ∃ id, locals.get? id named = some entry) ∧
      (list span ids named).dependencies m locals inTry =
        items.filterMap (FileState.entryDependency? span inTry) ++
          [.array ⟨items, span, span, inTry⟩] := by
  let state : FileState := { identity := m.identity, locals, inTry }
  refine ⟨ids.map fun id => state.classify id named m.render, ?_, ?_, rfl⟩
  · rw [List.forall₂_map_right_iff, List.forall₂_same]
    exact fun id _ => FileState.isFor_classify
  · intro item hitem entry hentry
    obtain ⟨id, -, rfl⟩ := List.mem_map.mp hitem
    exact ⟨id, FileState.get?_of_classify hentry⟩

theorem eq_of_entryDependency? {span : Span} {optional : Bool}
    (h : FileState.entryDependency? span optional item = some dependency) :
    dependency = .item ⟨item, none, span, optional⟩ ∧
      ∀ known expression, item ≠ .pseudo known expression := by
  cases item with
  | pseudo known expression => simp [FileState.entryDependency?] at h
  | localModule entry => exact ⟨(Option.some.inj h).symm, by simp⟩
  | external ref => exact ⟨(Option.some.inj h).symm, by simp⟩

theorem filterMap_dependencies_list {β : Type} {f : Dependency → Option β}
    (hitem : ∀ single, f (.item single) = none) (harray : ∀ list, f (.array list) = none)
    (m : Manner) (locals : LocalModules) (inTry : Bool) (span : Span) (ids : List String)
    (named : Option String) :
    ((list span ids named).dependencies m locals inTry).filterMap f = [] := by
  obtain ⟨items, -, -, hall⟩ := dependencies_list m locals inTry span ids named
  rw [hall, List.filterMap_eq_nil_iff]
  intro dependency hdependency
  rcases List.mem_append.mp hdependency with hentry | hlist
  · obtain ⟨item, -, hsome⟩ := List.mem_filterMap.mp hentry
    rw [(eq_of_entryDependency? hsome).1]
    exact hitem _
  · rw [List.mem_singleton.mp hlist]
    exact harray _

theorem exists_get? (hdependency : dependency ∈ entry.dependencies m locals inTry)
    {target : LocalModule} (htarget : .localModule target ∈ dependency.items) :
    ∃ id named, locals.get? id named = some target := by
  cases entry with
  | need id =>
    rw [List.mem_singleton.mp hdependency] at htarget
    exact absurd htarget List.not_mem_nil
  | list span ids named =>
    obtain ⟨items, -, hlocals, hall⟩ := dependencies_list m locals inTry span ids named
    rw [hall] at hdependency
    have hmem : AmdItem.localModule target ∈ items := by
      rcases List.mem_append.mp hdependency with hentry | hlist
      · obtain ⟨item, hitem, hsome⟩ := List.mem_filterMap.mp hentry
        rw [(eq_of_entryDependency? hsome).1] at htarget
        rwa [List.mem_singleton.mp htarget]
      · rw [List.mem_singleton.mp hlist] at htarget
        exact htarget
    obtain ⟨id, hget⟩ := hlocals _ hmem target rfl
    exact ⟨id, named, hget⟩
  | single span id named =>
    rw [List.mem_singleton.mp hdependency] at htarget
    exact ⟨id, named, FileState.get?_of_classify (List.mem_singleton.mp htarget).symm⟩
  | noId place => exact absurd hdependency List.not_mem_nil
  | noList place => exact absurd hdependency List.not_mem_nil
  | define call args =>
    rw [List.mem_singleton.mp hdependency] at htarget
    exact absurd htarget List.not_mem_nil

theorem forall₂_listed (entry : Entry) (m : Manner) (locals : LocalModules) (inTry : Bool) :
    List.Forall₂ (fun id item => item.IsFor id) entry.ids
      ((entry.dependencies m locals inTry).flatMap Dependency.listed) := by
  cases entry with
  | list span ids named =>
    obtain ⟨items, hitems, -, hall⟩ := dependencies_list m locals inTry span ids named
    have hentries : (items.filterMap (FileState.entryDependency? span inTry)).flatMap
        Dependency.listed = [] := by
      rw [List.flatMap_eq_nil_iff]
      intro dependency hdependency
      obtain ⟨item, -, hsome⟩ := List.mem_filterMap.mp hdependency
      rw [(eq_of_entryDependency? hsome).1]
      rfl
    rw [hall, List.flatMap_append, hentries, List.nil_append, List.flatMap_singleton]
    exact hitems
  | single span id named => exact .cons FileState.isFor_classify .nil
  | need id => exact .nil
  | noId place => exact .nil
  | noList place => exact .nil
  | define call args => exact .nil

/-- An item without a place of its own is an entry of a list that is recorded too, and no
pseudo-module. -/
theorem exists_list {dependency : ItemDependency}
    (hdependency : .item dependency ∈ entry.dependencies m locals inTry)
    (hrange : dependency.range = none) :
    (∃ list, .array list ∈ entry.dependencies m locals inTry ∧ dependency.item ∈ list.items) ∧
      ∀ known expression, dependency.item ≠ .pseudo known expression := by
  cases entry with
  | list span ids named =>
    obtain ⟨items, -, -, hall⟩ := dependencies_list m locals inTry span ids named
    rw [hall] at hdependency ⊢
    rcases List.mem_append.mp hdependency with hentry | hlist
    · obtain ⟨item, hitem, hsome⟩ := List.mem_filterMap.mp hentry
      obtain ⟨heq, hpseudo⟩ := eq_of_entryDependency? hsome
      rw [Dependency.item.inj heq]
      exact ⟨⟨_, List.mem_append_right _ List.mem_cons_self, hitem⟩, hpseudo⟩
    · exact absurd (List.mem_singleton.mp hlist) (by simp)
  | single span id named =>
    rw [Dependency.item.inj (List.mem_singleton.mp hdependency)] at hrange
    exact absurd hrange (by simp)
  | need id => exact absurd (List.mem_singleton.mp hdependency) (by simp)
  | noId place => exact absurd hdependency List.not_mem_nil
  | noList place => exact absurd hdependency List.not_mem_nil
  | define call args =>
    exact absurd (List.mem_singleton.mp hdependency) (by simp [defineDependency])

end Entry

/-! ### What is recorded for notes -/

section Notes

variable {m : Manner} {notes : List Note} {dependency : Dependency}

theorem filterMap_index?_dependencies (note : Note) :
    (note.dependencies m).filterMap Dependency.index? = note.index?.toList := by
  cases note with
  | script loader => rfl
  | said entry locals inTry =>
    cases entry with
    | list span ids named =>
      exact Entry.filterMap_dependencies_list (fun _ => rfl) (fun _ => rfl) m locals inTry span ids
        named
    | define call args =>
      rw [Note.dependencies, Entry.dependencies, Note.index?]
      cases hindex : (locals.declared args.name).map LocalModule.idx with
      | none => exact List.filterMap_cons_none hindex
      | some idx => exact List.filterMap_cons_some hindex
    | _ => rfl

theorem filterMap_index?_flatMap (notes : List Note) :
    (notes.flatMap (Note.dependencies m)).filterMap Dependency.index? =
      notes.filterMap Note.index? := by
  rw [List.filterMap_flatMap, List.filterMap_eq_flatMap_toList]
  exact List.flatMap_congr fun note _ => filterMap_index?_dependencies note

theorem forall₂_listed_flatMap (notes : List Note) :
    List.Forall₂ (fun id item => item.IsFor id) ((notes.filterMap Note.entry?).flatMap Entry.ids)
      ((notes.flatMap (Note.dependencies m)).flatMap Dependency.listed) := by
  induction notes with
  | nil => exact .nil
  | cons note notes ih =>
    rw [List.flatMap_cons, List.flatMap_append]
    cases note with
    | script loader =>
      rw [List.filterMap_cons_none rfl]
      exact ih
    | said entry locals inTry =>
      have hcons : (Note.said entry locals inTry :: notes).filterMap Note.entry? =
          entry :: notes.filterMap Note.entry? := rfl
      rw [hcons, List.flatMap_cons]
      exact List.rel_append (entry.forall₂_listed m locals inTry) ih

theorem exists_said (h : dependency ∈ notes.flatMap (Note.dependencies m))
    (hitems : ∀ id, dependency ≠ .require id) :
    ∃ entry locals inTry, .said entry locals inTry ∈ notes ∧
      dependency ∈ entry.dependencies m locals inTry := by
  obtain ⟨note, hnote, hmem⟩ := List.mem_flatMap.mp h
  cases note with
  | script loader => exact absurd (List.mem_singleton.mp hmem) (hitems loader)
  | said entry locals inTry => exact ⟨entry, locals, inTry, hnote, hmem⟩

end Notes

/-- **Local modules.**  A walk over a file succeeds, by the host alone or with the loader's plugins,
and then:

* every local module stands at its index;
* every item that refers to a local module refers to the first one of its name;
* the items that stand for the elements of lists are items for the string literals in the lists of
  the calls that the walk comes to, so one for the id of a pseudo-module is no local module; an item
  without a place of its own is one of these, and no pseudo-module;
* the local modules of the `define` calls have all indices, each of them once. -/
theorem walk_localModules (plugin? : Option DojoPlugin) (identity : ModuleIdentity)
    (program : List Node) :
    ∃ after,
      FileState.walk (DojoPlugin.hooks plugin?) program { identity } = (.ok (), after) ∧
      after.locals.Indexed ∧
      (∀ dependency ∈ after.dependencies, ∀ entry, .localModule entry ∈ dependency.items →
        after.locals.IsFirst entry) ∧
      (∃ ids : List String, ids.Perm ((visitedNodes program).flatMap Call.listedIds) ∧
        List.Forall₂ (fun id item => item.IsFor id) ids
          (after.dependencies.flatMap Dependency.listed)) ∧
      (∀ dependency, .item dependency ∈ after.dependencies → dependency.range = none →
        (∃ list, .array list ∈ after.dependencies ∧ dependency.item ∈ list.items) ∧
          ∀ known expression, dependency.item ≠ .pseudo known expression) ∧
      (after.dependencies.filterMap Dependency.index?).Perm
        (List.range after.locals.modules.length) := by
  obtain ⟨parts, kind, hparts, htable⟩ := DojoPlugin.exists_hooks_eq plugin?
  obtain ⟨after, notes, hwalk, htold, hdependencies, -⟩ :=
    AmdPlugin.exists_told_walk hparts kind identity program
  have horder := htold.orderly
  -- a file begins without local modules, so all that are there in the end were declared in it
  have hindexed : after.locals.Indexed := by
    apply horder.indexed
    intro i entry hentry
    exact absurd hentry (by simp)
  rw [htable]
  refine ⟨after, hwalk, hindexed, ?_, ?_, ?_, ?_⟩
  -- an item was looked up among the modules declared when its note was taken
  · intro dependency hdependency entry hentry
    rw [hdependencies] at hdependency
    have hnot : ∀ id, dependency ≠ .require id := by
      rintro id rfl
      exact List.not_mem_nil hentry
    obtain ⟨said, locals, inTry, hnote, hmem⟩ := exists_said hdependency hnot
    obtain ⟨id, named, hget⟩ := Entry.exists_get? hmem hentry
    exact LocalModules.isFirst_of_get? hget (horder.within said locals inTry hnote) hindexed
  · refine ⟨(notes.filterMap Note.entry?).flatMap Entry.ids, ?_, ?_⟩
    · have hperm := htold.entries_perm.flatMap_right Entry.ids
      rw [Task.entries, List.nil_append, List.flatMap_assoc] at hperm
      exact hperm
    · rw [hdependencies]
      exact forall₂_listed_flatMap notes
  -- what has no place of its own stands in the note of a whole list
  · intro dependency hdependency hrange
    rw [hdependencies] at hdependency ⊢
    obtain ⟨said, locals, inTry, hnote, hmem⟩ := exists_said hdependency (by simp)
    obtain ⟨⟨list, hlist, hitem⟩, hpseudo⟩ := Entry.exists_list hmem hrange
    exact ⟨⟨list, List.mem_flatMap.mpr ⟨_, hnote, hlist⟩, hitem⟩, hpseudo⟩
  · have hindices := horder.indices
    rw [hdependencies, filterMap_index?_flatMap, List.range_eq_range']
    exact hindices

end AmdBundle
