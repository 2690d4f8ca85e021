import AmdBundle.Pattern.Reader

/-!
# AmdBundle.Log.FieldPattern — patterns for the values of log fields

A log directive may give a pattern for the value of a field.  What such a pattern matches matters
inside spans only; here is told whether one is well formed (`FieldPattern.isWellFormed`).

Most of the written form is that of alias patterns.  There are these differences:

* Inside brackets there may be further brackets, and the operations `&&`, `--` and `~~`.
* A repetition needs a part before it: flags are none.
* Unless the flag `u` is switched off the pattern is about characters, and then nothing may depend
  on what kind of character one is beyond ASCII: no `\d`, `\s`, `\w`, no word boundary, and nothing
  to be matched in either case.
* With that flag switched off it is about bytes, and then nothing may stand for a byte that is not
  ASCII: no point, no negated class, and in brackets no other character.
-/

namespace AmdBundle
namespace FieldPattern

open Pattern Pattern.Reader

/-- How deep groups may nest. -/
def maxNesting : Nat := 250

def needBytes : Reader Unit := do
  if (← get).flags.unicode then failure

def needCharacters : Reader Unit := do
  unless (← get).flags.unicode do failure

/-- Fails where a character would have to be matched in either case and its cases are not known. -/
def needCase : Reader Unit := do
  if (← get).flags.eitherCase then needBytes

def isWide (c : Char) : Bool := 0x80 ≤ c.toNat

/-- An escape, from behind the backslash. -/
def readEscape (fuel : Nat) : Reader Regex := do
  let mark ← need
  if ['D', 'S', 'W'].contains mark then failure
  if ['d', 's', 'w', 'b', 'B', '<', '>'].contains mark then needBytes
  let part ← Reader.readEscape (fun c => return .char c) fuel
  match part with
  | .char c => do
    needCase
    if mark = 'x' && isWide c then needCharacters
  | _ => pure ()
  return part

/-! ## Classes in brackets -/

/-- Checks the ranges that an item of a class stands for. -/
def checkRanges (ranges : List (Nat × Nat)) : Reader Unit := do
  needCase
  if ranges.any fun range => 0x80 ≤ range.2 then needCharacters

/-- What may stand behind the opening bracket of a class and nowhere else in it. -/
def readClassStart (fuel : Nat) : Reader Unit := do
  skipSpace
  if (← need) = '^' then
    needCharacters
    bumpSpace
  let hyphens ← readHyphens fuel
  if !hyphens.isEmpty then needCase
  else if (← need) = ']' then
    needCase
    bumpSpace

/-- The items of a class, up to its closing bracket, which is taken. -/
def readClassItems : Nat → Reader Unit
  | 0 => failure
  | fuel + 1 => do
    skipSpace
    let c ← need
    let next := (← get).rest[1]?
    if c = '[' then
      match ← readNamedClass with
      | some s => checkRanges s.ranges
      | none => do
        bump
        readClassStart (fuel + 1)
        readClassItems fuel
      readClassItems fuel
    else if c = ']' then bump
    else if (c = '&' ∨ c = '-' ∨ c = '~') ∧ next = some c then
      bump
      bump
      readClassItems fuel
    else
      checkRanges (← readClassRange (readEscape fuel))
      readClassItems fuel

/-! ## Patterns -/

/-- A pattern up to the end of the text or of the group at `depth`; `repeatable` is whether there is
a part before that can be repeated. -/
def readParts : (fuel depth : Nat) → (repeatable : Bool) → Reader Unit
  | 0, _, _ => failure
  | fuel + 1, depth, repeatable => do
    skipSpace
    match ← peek with
    | none => return
    | some ')' => if depth = 0 then failure
    | some '|' => do
      bump
      readParts fuel depth false
    | some '(' => do
      bump
      let flags := (← get).flags
      match ← readGroupHead fuel with
      | .flags => do
        expect ')'
        readParts fuel depth false
      | _ => do
        if maxNesting ≤ depth then failure
        readParts fuel (depth + 1) false
        modify fun state => { state with flags }
        expect ')'
        readParts fuel depth true
    | some '[' => do
      bump
      readClassStart (fuel + 1)
      readClassItems (fuel + 1)
      readParts fuel depth true
    | some '\x7b' => do
      bump
      let (min, max) ← readBounds fuel
      if !repeatable || max.any (· < min) then failure
      discard readGreed
      readParts fuel depth true
    | some '\\' => do
      bump
      discard (readEscape fuel)
      readParts fuel depth true
    | some '.' => do
      bump
      needCharacters
      readParts fuel depth true
    | some c => do
      bump
      if c = '?' ∨ c = '*' ∨ c = '+' then
        if !repeatable then failure
        discard readGreed
      else if c ≠ '^' ∧ c ≠ '$' then needCase
      readParts fuel depth true

def isWellFormed (text : String) : Bool :=
  let cs := text.toList
  match (readParts (2 * cs.length + 2) 0 false).run { rest := cs } with
  | some ((), state) => state.rest.isEmpty
  | none => false

end FieldPattern
end AmdBundle
