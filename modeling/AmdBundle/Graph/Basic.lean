/-!
# AmdBundle.Graph.Basic — the module graph

One record for each module, found by its place, by its identifier and by the absolute ids that it
answers to.  An identifier leads to the record that was added last with it; an absolute id leads to
the first module that got it.
-/

namespace AmdBundle

structure ModuleRecord where
  /-- The identifier: loaders, file and query. -/
  request : String := ""
  /-- The request as the resolver got it. -/
  userRequest : String := ""
  /-- The request as written in the source. -/
  rawRequest : String := ""
  /-- The path of the file. -/
  resource : String := ""
  loaders : List String := []
  absMid : Option String := none
  /-- Other absolute ids of the module. -/
  absMidAliases : List String := []
  /-- Whether a `define` call was seen in the file. -/
  isAmd : Bool := false
  /-- The places of the modules it depends on. -/
  dependencies : List Nat := []
  deriving DecidableEq, Repr, Inhabited

namespace ModuleRecord

def answersTo (record : ModuleRecord) (absMid : String) : Bool :=
  record.absMid == some absMid || record.absMidAliases.contains absMid

def absMids (record : ModuleRecord) : List String :=
  record.absMid.toList ++ record.absMidAliases

/-- The module with one more id, which becomes its own id if it has none. -/
def withAbsMid (record : ModuleRecord) (absMid : String) : ModuleRecord :=
  match record.absMid with
  | none => { record with absMid := some absMid }
  | some _ => { record with absMidAliases := record.absMidAliases ++ [absMid] }

theorem answersTo_iff {record : ModuleRecord} {absMid : String} :
    record.answersTo absMid = true ↔ absMid ∈ record.absMids := by
  simp [answersTo, absMids]

@[simp] theorem request_withAbsMid (record : ModuleRecord) (absMid : String) :
    (record.withAbsMid absMid).request = record.request := by
  unfold withAbsMid
  split <;> rfl

theorem mem_absMids_withAbsMid {record : ModuleRecord} {absMid id : String} :
    id ∈ (record.withAbsMid absMid).absMids ↔ id ∈ record.absMids ∨ id = absMid := by
  unfold withAbsMid absMids
  cases hmid : record.absMid with
  | none => simp [or_comm, eq_comm]
  | some own => simp [or_assoc]

end ModuleRecord

/-- The modules and the tables they are found by. -/
structure ModuleGraph where
  modules : List ModuleRecord := []
  /-- Identifiers, the last one added first. -/
  identifiers : List (String × Nat) := []
  /-- Absolute ids, each once. -/
  absMids : List (String × Nat) := []
  deriving DecidableEq, Repr, Inhabited

namespace ModuleGraph

def empty : ModuleGraph := {}

def size (graph : ModuleGraph) : Nat := graph.modules.length

def get? (graph : ModuleGraph) (idx : Nat) : Option ModuleRecord := graph.modules[idx]?

/-- The place of the module with an identifier. -/
def byIdentifier? (graph : ModuleGraph) (request : String) : Option Nat :=
  graph.identifiers.lookup request

/-- The place of the module that an absolute id leads to. -/
def byAbsMid? (graph : ModuleGraph) (absMid : String) : Option Nat :=
  graph.absMids.lookup absMid

/-- The table with the id leading to the place, unless the id leads somewhere already. -/
def claimAbsMid (table : List (String × Nat)) (idx : Nat) (absMid : String) : List (String × Nat) :=
  match table.lookup absMid with
  | some _ => table
  | none => table ++ [(absMid, idx)]

/-- Adds a module; gives its place. -/
def add (graph : ModuleGraph) (record : ModuleRecord) : Nat × ModuleGraph :=
  let idx := graph.size
  (idx,
    { modules := graph.modules ++ [record]
      identifiers := (record.request, idx) :: graph.identifiers
      absMids :=
        record.absMids.foldl (fun table absMid => claimAbsMid table idx absMid) graph.absMids })

@[simp] theorem fst_add (graph : ModuleGraph) (record : ModuleRecord) :
    (graph.add record).1 = graph.size := rfl

@[simp] theorem size_add (graph : ModuleGraph) (record : ModuleRecord) :
    (graph.add record).2.size = graph.size + 1 := by
  simp [add, size]

theorem get?_add (graph : ModuleGraph) (record : ModuleRecord) (idx : Nat) :
    (graph.add record).2.get? idx = if idx = graph.size then some record else graph.get? idx := by
  rcases Nat.lt_trichotomy idx graph.modules.length with h | h | h
  · simp [add, get?, size, List.getElem?_append_left h, Nat.ne_of_lt h]
  · simp [add, get?, size, h]
  · have hs : idx - graph.modules.length ≠ 0 := by omega
    simp [add, get?, size, List.getElem?_append_right (Nat.le_of_lt h), Nat.ne_of_gt h, hs]
    omega

@[simp] theorem get?_size (graph : ModuleGraph) : graph.get? graph.size = none := by
  simp [get?, size]

theorem byIdentifier?_add (graph : ModuleGraph) (record : ModuleRecord) (request : String) :
    (graph.add record).2.byIdentifier? request =
      if request = record.request then some graph.size else graph.byIdentifier? request := by
  by_cases h : request = record.request
  · simp [add, byIdentifier?, h]
  · have hb : (request == record.request) = false := by simpa using h
    simp [add, byIdentifier?, List.lookup_cons, h, hb]

/-- An id that leads somewhere goes on to lead there; only the claimed one may be new. -/
theorem lookup_claimAbsMid (table : List (String × Nat)) (idx : Nat) (absMid id : String) :
    (claimAbsMid table idx absMid).lookup id =
      (table.lookup id).or (if id = absMid then some idx else none) := by
  unfold claimAbsMid
  split
  · rename_i found h
    by_cases hid : id = absMid
    · simp [hid, h]
    · simp [hid]
  · rw [List.lookup_append]
    by_cases hid : id = absMid
    · simp [hid]
    · have hb : (id == absMid) = false := by simpa using hid
      simp [List.lookup_cons, hid, hb]

theorem lookup_foldl_claimAbsMid (ids : List String) (table : List (String × Nat)) (idx : Nat)
    (id : String) :
    (ids.foldl (fun table absMid => claimAbsMid table idx absMid) table).lookup id =
      (table.lookup id).or (if id ∈ ids then some idx else none) := by
  induction ids generalizing table with
  | nil => simp
  | cons absMid ids ih =>
    rw [List.foldl_cons, ih, lookup_claimAbsMid]
    by_cases h : id = absMid <;> cases table.lookup id <;> simp [h]

/-- The ids of the new module lead to it unless they led somewhere before. -/
theorem byAbsMid?_add (graph : ModuleGraph) (record : ModuleRecord) (absMid : String) :
    (graph.add record).2.byAbsMid? absMid =
      (graph.byAbsMid? absMid).or (if absMid ∈ record.absMids then some graph.size else none) :=
  lookup_foldl_claimAbsMid record.absMids graph.absMids graph.size absMid

/-- Changes the module at a place; the tables stay as they are. -/
def modify (graph : ModuleGraph) (idx : Nat) (change : ModuleRecord → ModuleRecord) : ModuleGraph :=
  { graph with modules := graph.modules.modify idx change }

section Modify

variable (graph : ModuleGraph) (idx : Nat) (change : ModuleRecord → ModuleRecord)

@[simp] theorem size_modify : (graph.modify idx change).size = graph.size := by
  simp [modify, size]

@[simp] theorem byIdentifier?_modify (request : String) :
    (graph.modify idx change).byIdentifier? request = graph.byIdentifier? request := rfl

@[simp] theorem byAbsMid?_modify (absMid : String) :
    (graph.modify idx change).byAbsMid? absMid = graph.byAbsMid? absMid := rfl

theorem get?_modify (i : Nat) :
    (graph.modify idx change).get? i =
      if idx = i then (graph.get? i).map change else graph.get? i := by
  simp only [modify, get?, List.getElem?_modify]
  split <;> simp

end Modify

/-- Gives a module one more absolute id; tells whether it was new to the module. -/
def addAlias (graph : ModuleGraph) (idx : Nat) (absMid : String) : Bool × ModuleGraph :=
  match graph.get? idx with
  | none => (false, graph)
  | some record =>
    if record.answersTo absMid then (false, graph)
    else
      (true,
        { graph.modify idx (·.withAbsMid absMid) with
          absMids := claimAbsMid graph.absMids idx absMid })

section AddAlias

variable {graph : ModuleGraph} {idx : Nat} {record : ModuleRecord} {absMid : String}

theorem addAlias_of_get?_eq_none (h : graph.get? idx = none) :
    graph.addAlias idx absMid = (false, graph) := by
  simp [addAlias, h]

theorem addAlias_of_answersTo (h : graph.get? idx = some record)
    (ha : record.answersTo absMid = true) : graph.addAlias idx absMid = (false, graph) := by
  simp [addAlias, h, ha]

theorem addAlias_of_not_answersTo (h : graph.get? idx = some record)
    (ha : ¬ record.answersTo absMid = true) :
    graph.addAlias idx absMid =
      (true,
        { graph.modify idx (·.withAbsMid absMid) with
          absMids := claimAbsMid graph.absMids idx absMid }) := by
  simp [addAlias, h, ha]

@[simp] theorem size_addAlias : (graph.addAlias idx absMid).2.size = graph.size := by
  unfold addAlias
  split
  · rfl
  · split
    · rfl
    · exact size_modify graph idx _

@[simp] theorem byIdentifier?_addAlias (request : String) :
    (graph.addAlias idx absMid).2.byIdentifier? request = graph.byIdentifier? request := by
  unfold addAlias
  split
  · rfl
  · split <;> rfl

/-- An id that leads somewhere goes on to lead there; only the alias may be new. -/
theorem byAbsMid?_addAlias_of_not_answersTo (h : graph.get? idx = some record)
    (ha : ¬ record.answersTo absMid = true) (id : String) :
    (graph.addAlias idx absMid).2.byAbsMid? id =
      (graph.byAbsMid? id).or (if id = absMid then some idx else none) := by
  rw [addAlias_of_not_answersTo h ha]
  exact lookup_claimAbsMid graph.absMids idx absMid id

theorem get?_addAlias_of_not_answersTo (h : graph.get? idx = some record)
    (ha : ¬ record.answersTo absMid = true) (i : Nat) :
    (graph.addAlias idx absMid).2.get? i =
      if idx = i then some (record.withAbsMid absMid) else graph.get? i := by
  rw [addAlias_of_not_answersTo h ha]
  refine (get?_modify graph idx (·.withAbsMid absMid) i).trans ?_
  by_cases hi : idx = i
  · subst hi
    simp [h]
  · simp [hi]

end AddAlias

end ModuleGraph
end AmdBundle
