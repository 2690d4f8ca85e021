import AmdBundle.Json.Number

/-!
# AmdBundle.Json.Basic — JSON values

A JSON document as a value.  An object keeps its members in the order written, repeated keys
included, because the kinds of object differ in what a repeated key means; `Json.distinct` gives the
reading in which the last one counts.
-/

namespace AmdBundle

inductive Json where
  | null
  | bool (value : Bool)
  | number (value : JsonNumber)
  | string (value : String)
  | array (items : List Json)
  | object (members : List (String × Json))
  deriving Repr, Inhabited, BEq

namespace Json

/-- The value under a key of an object; the last one if the key is repeated. -/
def get? (key : String) : Json → Option Json
  | object members => members.reverse.lookup key
  | _ => none

def string? : Json → Option String
  | string value => some value
  | _ => none

def bool? : Json → Option Bool
  | bool value => some value
  | _ => none

def array? : Json → Option (List Json)
  | array items => some items
  | _ => none

def object? : Json → Option (List (String × Json))
  | object members => some members
  | _ => none

/-- The value of an integer that is not negative. -/
def nat? : Json → Option Nat
  | number (.integer value) => if 0 ≤ value then some value.toNat else none
  | _ => none

/-- Of members with one key the last is kept, in its place. -/
def lastWins {α : Type} : List (String × α) → List (String × α)
  | [] => []
  | (key, value) :: rest =>
    if (rest.map Prod.fst).contains key then lastWins rest else (key, value) :: lastWins rest

mutual

/-- The value with repeated keys removed from every object in it, the last one counting. -/
def distinct : Json → Json
  | null => null
  | bool value => bool value
  | number value => number value
  | string value => string value
  | array items => array (distinctItems items)
  | object members => object (lastWins (distinctMembers members))

def distinctItems : List Json → List Json
  | [] => []
  | item :: rest => item.distinct :: distinctItems rest

def distinctMembers : List (String × Json) → List (String × Json)
  | [] => []
  | (key, value) :: rest => (key, value.distinct) :: distinctMembers rest

end

/-- Truth of a value as a script sees it: `null`, `false`, zero and the empty text are false, all
else is true. -/
def isTruthy : Json → Bool
  | null => false
  | bool value => value
  | number value => !value.isZero
  | string value => !value.isEmpty
  | array _ => true
  | object _ => true

end Json
end AmdBundle
