import AmdBundle.Proofs.Amd.HostForm

/-!
# AmdBundle.Proofs.Amd.Positions — the entries of a list by position

A constant list of ids is recorded in three ways at once: entry by entry, as a whole, and in the
names that it gives to function parameters.  `FileState.AddsList` tells the three apart by the
positions of the ids: the whole list has an item for each id, only ids that are no pseudo-modules
are recorded on their own, and only the slots at the places of pseudo-modules are filled
(`addsList_addArray`).  Which item is a pseudo-module depends on its id alone (`AmdItem.IsFor`).
-/

namespace AmdBundle

/-! ### Ids of pseudo-modules -/

namespace PseudoModule

theorem ofId?_id (known : PseudoModule) : ofId? known.id = some known := by
  cases known <;> rfl

theorem ofId?_eq_some_iff {id : String} {known : PseudoModule} :
    ofId? id = some known ↔ id = known.id := by
  constructor
  · intro h
    unfold ofId? at h
    split at h
    all_goals first
      | (obtain rfl := Option.some.inj h; rfl)
      | simp at h
  · rintro rfl
    exact ofId?_id known

theorem ofId?_eq_none_iff {id : String} :
    ofId? id = none ↔ ∀ known : PseudoModule, id ≠ known.id := by
  rw [Option.eq_none_iff_forall_ne_some]
  exact forall_congr' fun known => not_congr ofId?_eq_some_iff

/-- The name that an id gives to a function parameter: itself if it is a pseudo-module's. -/
def bound? (id : String) : Option String := (ofId? id).map PseudoModule.id

theorem bound?_eq_some_iff {id name : String} :
    bound? id = some name ↔ ∃ known : PseudoModule, id = known.id ∧ known.id = name := by
  rw [bound?, Option.map_eq_some_iff]
  simp only [ofId?_eq_some_iff]

end PseudoModule

/-- The item is one for the id: a pseudo-module exactly if the id is the name of that one. -/
def AmdItem.IsFor (id : String) : AmdItem → Prop
  | .pseudo known _ => id = known.id
  | .localModule _ | .external _ => ∀ known : PseudoModule, id ≠ known.id

theorem AmdItem.IsFor.exists_pseudo_iff {id : String} {item : AmdItem} (h : item.IsFor id)
    {known : PseudoModule} : (∃ expression, item = .pseudo known expression) ↔ id = known.id := by
  cases item with
  | pseudo other expression =>
    obtain rfl : id = other.id := h
    constructor
    · rintro ⟨_, hitem⟩
      rw [(AmdItem.pseudo.inj hitem).1]
    · intro hid
      have hsame : some other = some known := by
        rw [← PseudoModule.ofId?_id other, hid, PseudoModule.ofId?_id]
      rw [Option.some.inj hsame]
      exact ⟨expression, rfl⟩
  | localModule entry =>
    constructor
    · rintro ⟨_, hitem⟩
      exact absurd hitem (by simp)
    · exact fun hid => absurd hid (h known)
  | external ref =>
    constructor
    · rintro ⟨_, hitem⟩
      exact absurd hitem (by simp)
    · exact fun hid => absurd hid (h known)

namespace FileState

variable {state : FileState} {id : String} {ids : List String} {span : Span} {slots : Slots}
  {named : Option String} {render : Render} {items : List AmdItem} {i : Nat}

theorem isFor_classify : (state.classify id named render).IsFor id := by
  unfold classify
  cases hpseudo : PseudoModule.ofId? id with
  | some known => exact PseudoModule.ofId?_eq_some_iff.mp hpseudo
  | none =>
    dsimp only
    cases state.locals.get? id named <;> exact PseudoModule.ofId?_eq_none_iff.mp hpseudo

/-! ### The entries -/

theorem entryDependency?_classify {optional : Bool} :
    entryDependency? span optional (state.classify id named render) =
      if (PseudoModule.ofId? id).isNone then
        some (.item ⟨state.classify id named render, none, span, optional⟩)
      else none := by
  unfold classify
  cases PseudoModule.ofId? id with
  | some known => rfl
  | none =>
    dsimp only
    cases state.locals.get? id named <;> rfl

theorem filterMap_entryDependency? {optional : Bool} :
    (ids.map fun id => state.classify id named render).filterMap
        (entryDependency? span optional) =
      (ids.filter fun id => (PseudoModule.ofId? id).isNone).map fun id =>
        .item ⟨state.classify id named render, none, span, optional⟩ := by
  induction ids with
  | nil => rfl
  | cons id ids ih =>
    rw [List.map_cons, List.filterMap_cons, entryDependency?_classify, ih]
    cases hpseudo : (PseudoModule.ofId? id).isNone with
    | true => rw [List.filter_cons_of_pos (by exact hpseudo), if_pos rfl, List.map_cons]
    | false =>
      have hneg : ¬ (PseudoModule.ofId? id).isNone = true := by
        rw [hpseudo]
        exact Bool.false_ne_true
      rw [List.filter_cons_of_neg (by exact hneg), if_neg Bool.false_ne_true]

/-! ### The slots -/

theorem length_bindPseudo (items : List AmdItem) (slots : Slots) :
    (bindPseudo items slots).length = slots.length := by
  induction items generalizing slots with
  | nil => rfl
  | cons item items ih =>
    cases slots with
    | nil => cases item <;> rfl
    | cons slot slots => cases item <;> exact congrArg (· + 1) (ih slots)

theorem getElem?_bindPseudo (items : List AmdItem) (slots : Slots) (i : Nat) :
    (bindPseudo items slots)[i]? =
      match items[i]? with
      | some (.pseudo known _) => slots[i]?.map fun _ => some known.id
      | _ => slots[i]? := by
  induction items generalizing slots i with
  | nil => rfl
  | cons item items ih =>
    cases slots with
    | nil =>
      have hnil : bindPseudo (item :: items) [] = [] := by cases item <;> rfl
      rw [hnil]
      simp only [List.getElem?_nil, Option.map_none]
      split <;> rfl
    | cons slot slots =>
      cases i with
      | zero => cases item <;> rfl
      | succ i => cases item <;> exact ih slots i

/-! ### Both -/

/-- What adding a list to a file does, by the positions of the ids.  One flag says of all that is
recorded whether the modules may be missing. -/
structure AddsList (state : FileState) (ids : List String) (span : Span) (slots : Slots)
    (named : Option String) (render : Render) (after : FileState) (bound : Slots) : Prop where
  /-- The ids of modules on their own, and then all of them; nothing else changes. -/
  recorded : after = { state with
    dependencies := state.dependencies ++
      ((ids.filter fun id => (PseudoModule.ofId? id).isNone).map fun id =>
        .item ⟨state.classify id named render, none, span, state.inTry⟩) ++
      [.array ⟨ids.map fun id => state.classify id named render, span, span, state.inTry⟩] }
  length : bound.length = slots.length
  /-- A slot at the place of a pseudo-module has its name. -/
  filled : ∀ (i : Nat) (known : PseudoModule), i < slots.length → ids[i]? = some known.id →
    bound[i]? = some (some known.id)
  /-- Every other slot is what it was. -/
  kept : ∀ i : Nat, (∀ known : PseudoModule, ids[i]? ≠ some known.id) → bound[i]? = slots[i]?

theorem addsList_addArray (state : FileState) (ids : List String) (span : Span) (slots : Slots)
    (named : Option String) (render : Render) :
    state.AddsList ids span slots named render (state.addArray ids span slots named render).1
      (state.addArray ids span slots named render).2 where
  recorded := by
    rw [addArray]
    dsimp only
    rw [filterMap_entryDependency?]
  length := by rw [snd_addArray, length_bindPseudo]
  filled i known hi hid := by
    rw [snd_addArray, getElem?_bindPseudo, List.getElem?_map, hid, Option.map_some, classify,
      PseudoModule.ofId?_id]
    dsimp only
    rw [List.getElem?_eq_getElem hi, Option.map_some]
  kept i hnone := by
    rw [snd_addArray, getElem?_bindPseudo, List.getElem?_map]
    cases hid : ids[i]? with
    | none => rfl
    | some id =>
      have hfor : (state.classify id named render).IsFor id := isFor_classify
      rw [Option.map_some]
      cases hitem : state.classify id named render with
      | pseudo known expression =>
        rw [hitem] at hfor
        have hname : id = known.id := hfor
        exact absurd (by rw [hid, hname]) (hnone known)
      | localModule entry => rfl
      | external ref => rfl

/-- The last id has no slot. -/
example (identity : ModuleIdentity) (render : Render) :
    (FileState.addArray { identity } ["require", "./a", "exports"] {} [none, some "b"] none
      render).2 = [some "require", some "b"] := rfl

theorem snd_addArray_none (hslots : slots = ids.map fun _ => none) :
    (state.addArray ids span slots named render).2 = ids.map PseudoModule.bound? := by
  have hadds := addsList_addArray state ids span slots named render
  apply List.ext_getElem?
  intro i
  rw [List.getElem?_map]
  cases hid : ids[i]? with
  | none =>
    rw [hadds.kept i fun known => by rw [hid]; simp, hslots, List.getElem?_map, hid]
    rfl
  | some id =>
    have hi : i < slots.length := by
      rw [hslots, List.length_map]
      exact (List.getElem?_eq_some_iff.mp hid).1
    rw [Option.map_some, PseudoModule.bound?]
    cases hpseudo : PseudoModule.ofId? id with
    | some known =>
      rw [PseudoModule.ofId?_eq_some_iff.mp hpseudo] at hid
      rw [hadds.filled i known hi hid, Option.map_some]
    | none =>
      have hnone : ∀ known : PseudoModule, ids[i]? ≠ some known.id := by
        intro known hknown
        rw [hid] at hknown
        exact PseudoModule.ofId?_eq_none_iff.mp hpseudo known (Option.some.inj hknown)
      rw [hadds.kept i hnone, hslots, List.getElem?_map, hid]
      rfl

end FileState
end AmdBundle
