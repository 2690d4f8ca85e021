import AmdBundle.Json.Reader

/-!
# AmdBundle.LoaderConfig — the configuration of the module loader

What of a loader's configuration bears on module ids: packages, the map, aliases and features.  It is
read from a value, an object by keys or an array by position, or from a document, in which a known
key may not be repeated; keys that are not known are ignored.
-/

namespace AmdBundle

/-- A package: its name alone, or its definition. -/
inductive Package where
  | named (name : String)
  | defined (name : String) (location main : Option String)
  deriving DecidableEq, Repr

namespace Package

/-- The first segment or segments of the ids of its modules. -/
def name : Package → String
  | named name => name
  | defined name _ _ => name

/-- The module that the bare name of the package stands for, without a leading `./`. -/
def main : Package → String
  | named _ => "main"
  | defined _ _ none => "main"
  | defined _ _ (some main) =>
    match main.toList with
    | '.' :: '/' :: rest => String.ofList rest
    | _ => main

end Package

/-- A table by text, in which a key occurs once. -/
abbrev Table (α : Type) : Type := List (String × α)

namespace Table

/-- The table with the entry, which takes the place of one with the same key. -/
def insert {α : Type} (table : Table α) (key : String) (value : α) : Table α :=
  table.filter (fun entry => entry.1 != key) ++ [(key, value)]

/-- The table of the entries; of those with one key the last counts. -/
def ofEntries {α : Type} (entries : List (String × α)) : Table α :=
  entries.foldl (fun table entry => insert table entry.1 entry.2) []

end Table

structure LoaderConfig where
  packages : List Package := []
  /-- By the ids of referring modules, or `*` for all of them, what ids begin with instead. -/
  map : Table (Table String) := []
  /-- Patterns, and the ids that take the place of those they match. -/
  aliases : List (String × String) := []
  /-- The values of features. -/
  has : Table Json := []

namespace LoaderConfig

/-- Later values take the place of those that the configuration gives to features. -/
def withFeatures (config : LoaderConfig) (features : List (String × Json)) : LoaderConfig :=
  { config with has := features.foldl (fun table entry => table.insert entry.1 entry.2) config.has }

def package? (config : LoaderConfig) (name : String) : Option Package :=
  config.packages.find? fun package => package.name == name

/-- The build-time truth of a feature, if it is configured. -/
def feature? (config : LoaderConfig) (name : String) : Option Bool :=
  (config.has.lookup name).map Json.isTruthy

/-! ## Reading -/

/-- The value of a field: absent is `some none`, and a field given twice is an error. -/
def field? (members : List (String × Json)) (key : String) : Option (Option Json) :=
  match members.filter fun member => member.1 == key with
  | [] => some none
  | [member] => some (some member.2)
  | _ => none

/-- A text or `null`; absent counts as `null`. -/
def optionalText? : Option Json → Option (Option String)
  | none => some none
  | some .null => some none
  | some (.string text) => some (some text)
  | some _ => none

/-- A package: a text, an object with a name, or an array of name, location and main module. -/
def packageOfJson? : Json → Option Package
  | .string name => some (.named name)
  | .object members => do
    let name ← (← field? members "name").bind Json.string?
    let location ← optionalText? (← field? members "location")
    let main ← optionalText? (← field? members "main")
    return .defined name location main
  | .array (.string name :: rest) =>
    if rest.length ≤ 2 then do
      let location ← optionalText? rest[0]?
      let main ← optionalText? rest[1]?
      return .defined name location main
    else none
  | _ => none

def packagesOfJson? (value : Json) : Option (List Package) := do
  (← value.array?).mapM packageOfJson?

def textsOfJson? (value : Json) : Option (Table String) := do
  let entries ← (← value.object?).mapM fun member => do
    return (member.1, ← member.2.string?)
  return Table.ofEntries entries

def mapOfJson? (value : Json) : Option (Table (Table String)) := do
  let entries ← (← value.object?).mapM fun member => do
    return (member.1, ← textsOfJson? member.2)
  return Table.ofEntries entries

def pairOfJson? : Json → Option (String × String)
  | .array [.string pattern, .string replacement] => some (pattern, replacement)
  | _ => none

def aliasesOfJson? (value : Json) : Option (List (String × String)) := do
  (← value.array?).mapM pairOfJson?

def hasOfJson? (value : Json) : Option (Table Json) := do
  return Table.ofEntries ((← value.object?).map fun member => (member.1, member.2.distinct))

/-- The value of a field, or the default if it is absent. -/
def orDefault {α : Type} (default : α) (read : Json → Option α) : Option Json → Option α
  | none => some default
  | some value => read value

def ofFields? (packages map aliases has : Option Json) : Option LoaderConfig := do
  return {
    packages := ← orDefault [] packagesOfJson? packages
    map := ← orDefault [] mapOfJson? map
    aliases := ← orDefault [] aliasesOfJson? aliases
    has := ← orDefault [] hasOfJson? has }

def fieldNames : List String := ["packages", "map", "aliases", "has"]

def ofJson? : Json → Option LoaderConfig
  | .object members => do
    ofFields? (← field? members "packages") (← field? members "map") (← field? members "aliases")
      (← field? members "has")
  | .array items =>
    if items.length ≤ fieldNames.length then
      ofFields? items[0]? items[1]? items[2]? items[3]?
    else none
  | _ => none

def ofText? (text : String) : Option LoaderConfig := do
  ofJson? (← Json.ofTextIgnoring? (fun key => !fieldNames.contains key) text)

/-! ## Writing -/

def optionalJson : Option String → Json
  | some text => .string text
  | none => .null

def jsonOfPackage : Package → Json
  | .named name => .string name
  | .defined name location main =>
    .object [
      ("name", .string name), ("location", optionalJson location), ("main", optionalJson main)]

def toJson (config : LoaderConfig) : Json :=
  .object [
    ("packages", .array (config.packages.map jsonOfPackage)),
    ("map", .object (config.map.map fun entry =>
      (entry.1, .object (entry.2.map fun pair => (pair.1, .string pair.2))))),
    ("aliases", .array (config.aliases.map fun pair => .array [.string pair.1, .string pair.2])),
    ("has", .object config.has)]

end LoaderConfig
end AmdBundle
