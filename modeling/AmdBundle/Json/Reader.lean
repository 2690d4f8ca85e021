import AmdBundle.Json.Basic
import AmdBundle.Text.Bytes

/-!
# AmdBundle.Json.Reader — reading JSON

`Json.ofText?` reads a document: one value with nothing but blanks around it.  The reading is
strict: no control characters inside strings, no lone surrogate escapes, no numbers beyond the
doubles, no leading zeros, no trailing commas, and arrays and objects nested at most 127 deep.

`Json.ofTextIgnoring?` is for a document that is an object of which only some keys matter.  The
values under the other keys are left out, and of them only the grammar is checked: any depth, any
number, any escape of four digits.

Every reader takes the characters still to come and gives what it read with the characters that are
left.  The fuel is more than twice the length of the text: of two steps one takes a character off.
-/

namespace AmdBundle
namespace Json
namespace Reader

open Text

def isBlank (c : Char) : Bool :=
  c == ' ' || c == '\n' || c == '\t' || c == '\r'

def skipBlank (cs : List Char) : List Char :=
  cs.dropWhile isBlank

def hex4? : List Char → Option (Nat × List Char)
  | a :: b :: c :: d :: rest => do
    let w ← hexValue? a
    let x ← hexValue? b
    let y ← hexValue? c
    let z ← hexValue? d
    return (((w * 16 + x) * 16 + y) * 16 + z, rest)
  | _ => none

/-- The character that a letter stands for after a backslash. -/
def shortEscape? : Char → Option Char
  | '"' => some '"'
  | '\\' => some '\\'
  | '/' => some '/'
  | 'b' => some '\x08'
  | 'f' => some '\x0c'
  | 'n' => some '\n'
  | 'r' => some '\r'
  | 't' => some '\t'
  | _ => none

def isHighSurrogate (n : Nat) : Bool := 0xD800 ≤ n && n ≤ 0xDBFF

def isLowSurrogate (n : Nat) : Bool := 0xDC00 ≤ n && n ≤ 0xDFFF

/-- The character of an escape, from behind the backslash.  A surrogate counts only as one of a
pair. -/
def readEscape : List Char → Option (Char × List Char)
  | 'u' :: rest => do
    let (n, rest) ← hex4? rest
    if isLowSurrogate n then none
    else if isHighSurrogate n then
      match rest with
      | '\\' :: 'u' :: rest => do
        let (m, rest) ← hex4? rest
        if isLowSurrogate m then
          some (Char.ofNat (0x10000 + (n - 0xD800) * 0x400 + (m - 0xDC00)), rest)
        else none
      | _ => none
    else some (Char.ofNat n, rest)
  | c :: rest => (shortEscape? c).map (·, rest)
  | [] => none

/-- The characters of a string from behind its opening quote; `read` holds those read so far, the
last one first. -/
def readString : Nat → List Char → List Char → Option (String × List Char)
  | 0, _, _ => none
  | _ + 1, _, [] => none
  | fuel + 1, read, c :: rest =>
    if c = '"' then some (String.ofList read.reverse, rest)
    else if c = '\\' then do
      let (e, rest) ← readEscape rest
      readString fuel (e :: read) rest
    else if c.toNat < 0x20 then none
    else readString fuel (c :: read) rest

def digits (cs : List Char) : List Char × List Char :=
  (cs.takeWhile Char.isDigit, cs.dropWhile Char.isDigit)

/-- The whole part of a number: digits without a leading zero. -/
def readWhole (cs : List Char) : Option (List Char × List Char) :=
  match digits cs with
  | ([], _) => none
  | ('0' :: _ :: _, _) => none
  | found => some found

/-- The digits behind a point, if there is one. -/
def readFraction : List Char → Option (Option (List Char) × List Char)
  | '.' :: rest =>
    match digits rest with
    | ([], _) => none
    | (found, rest) => some (some found, rest)
  | cs => some (none, cs)

/-- The power of ten behind an `e`, if there is one. -/
def readExponent : List Char → Option (Option Int × List Char)
  | c :: rest =>
    if c = 'e' ∨ c = 'E' then
      let (negative, rest) :=
        match rest with
        | '-' :: rest => (true, rest)
        | '+' :: rest => (false, rest)
        | rest => (false, rest)
      match digits rest with
      | ([], _) => none
      | (found, rest) =>
        let n : Int := NumberText.digitsValue 0 found
        some (some (if negative then -n else n), rest)
    else some (none, c :: rest)
  | [] => some (none, [])

/-- A number by its grammar alone. -/
def readNumber (cs : List Char) : Option (NumberText × List Char) := do
  let (negative, cs) :=
    match cs with
    | '-' :: rest => (true, rest)
    | cs => (false, cs)
  let (whole, cs) ← readWhole cs
  let (fraction, cs) ← readFraction cs
  let (exponent, cs) ← readExponent cs
  return (⟨negative, whole, fraction, exponent⟩, cs)

/-! ## Values that are only checked -/

/-- What follows a string, from behind its opening quote. -/
def skipString : Nat → List Char → Option (List Char)
  | 0, _ => none
  | _ + 1, [] => none
  | fuel + 1, c :: rest =>
    if c = '"' then some rest
    else if c = '\\' then
      match rest with
      | 'u' :: rest => do
        let (_, rest) ← hex4? rest
        skipString fuel rest
      | e :: rest => if (shortEscape? e).isSome then skipString fuel rest else none
      | [] => none
    else if c.toNat < 0x20 then none
    else skipString fuel rest

mutual

/-- What follows a value. -/
def skipValue (fuel : Nat) (cs : List Char) : Option (List Char) :=
  match fuel with
  | 0 => none
  | fuel + 1 =>
    match skipBlank cs with
    | '"' :: rest => skipString fuel rest
    | '[' :: rest =>
      match skipBlank rest with
      | ']' :: rest => some rest
      | rest => skipItems fuel rest
    | '\x7b' :: rest =>
      match skipBlank rest with
      | '\x7d' :: rest => some rest
      | rest => skipMembers fuel rest
    | 'n' :: 'u' :: 'l' :: 'l' :: rest => some rest
    | 't' :: 'r' :: 'u' :: 'e' :: rest => some rest
    | 'f' :: 'a' :: 'l' :: 's' :: 'e' :: rest => some rest
    | rest => (readNumber rest).map Prod.snd

/-- What follows an array, from its next item on. -/
def skipItems (fuel : Nat) (cs : List Char) : Option (List Char) :=
  match fuel with
  | 0 => none
  | fuel + 1 => do
    match skipBlank (← skipValue fuel cs) with
    | ',' :: rest => skipItems fuel rest
    | ']' :: rest => some rest
    | _ => none

/-- What follows an object, from its next member on. -/
def skipMembers (fuel : Nat) (cs : List Char) : Option (List Char) :=
  match fuel with
  | 0 => none
  | fuel + 1 =>
    match skipBlank cs with
    | '"' :: rest => do
      match skipBlank (← skipString fuel rest) with
      | ':' :: rest =>
        match skipBlank (← skipValue fuel rest) with
        | ',' :: rest => skipMembers fuel rest
        | '\x7d' :: rest => some rest
        | _ => none
      | _ => none
    | _ => none

end

/-! ## Values -/

mutual

/-- A value; `depth` bounds how deep arrays and objects may still nest. -/
def readValue (fuel depth : Nat) (cs : List Char) : Option (Json × List Char) :=
  match fuel with
  | 0 => none
  | fuel + 1 =>
    match skipBlank cs with
    | '"' :: rest => (readString fuel [] rest).map fun r => (.string r.1, r.2)
    | '[' :: rest =>
      match depth with
      | 0 => none
      | depth + 1 =>
        match skipBlank rest with
        | ']' :: rest => some (.array [], rest)
        | rest => (readItems fuel depth [] rest).map fun r => (.array r.1, r.2)
    | '\x7b' :: rest =>
      match depth with
      | 0 => none
      | depth + 1 => (readObject fuel depth (fun _ => false) rest).map fun r => (.object r.1, r.2)
    | 'n' :: 'u' :: 'l' :: 'l' :: rest => some (.null, rest)
    | 't' :: 'r' :: 'u' :: 'e' :: rest => some (.bool true, rest)
    | 'f' :: 'a' :: 'l' :: 's' :: 'e' :: rest => some (.bool false, rest)
    | rest => do
      let (found, rest) ← readNumber rest
      let value ← found.value?
      return (.number value, rest)

/-- The items of an array from the next one on; `read` holds those before it, the last one first. -/
def readItems (fuel depth : Nat) (read : List Json) (cs : List Char) :
    Option (List Json × List Char) :=
  match fuel with
  | 0 => none
  | fuel + 1 => do
    let (item, rest) ← readValue fuel depth cs
    match skipBlank rest with
    | ',' :: rest => readItems fuel depth (item :: read) rest
    | ']' :: rest => some ((item :: read).reverse, rest)
    | _ => none

/-- The members of an object from behind its opening brace, without those under ignored keys. -/
def readObject (fuel depth : Nat) (ignored : String → Bool) (cs : List Char) :
    Option (List (String × Json) × List Char) :=
  match fuel with
  | 0 => none
  | fuel + 1 =>
    match skipBlank cs with
    | '\x7d' :: rest => some ([], rest)
    | rest => readMembers fuel depth ignored [] rest

/-- The members of an object from the next one on; `read` holds those before it, the last one first.
-/
def readMembers (fuel depth : Nat) (ignored : String → Bool) (read : List (String × Json))
    (cs : List Char) : Option (List (String × Json) × List Char) :=
  match fuel with
  | 0 => none
  | fuel + 1 =>
    match skipBlank cs with
    | '"' :: rest => do
      let (key, rest) ← readString fuel [] rest
      match skipBlank rest with
      | ':' :: rest =>
        let (read, rest) ←
          if ignored key then (skipValue fuel rest).map (read, ·)
          else (readValue fuel depth rest).map fun r => ((key, r.1) :: read, r.2)
        match skipBlank rest with
        | ',' :: rest => readMembers fuel depth ignored read rest
        | '\x7d' :: rest => some (read.reverse, rest)
        | _ => none
      | _ => none
    | _ => none

end

def maxDepth : Nat := 127

/-- The fuel for a text: more than any reader uses on it. -/
def fuelFor (cs : List Char) : Nat := 2 * cs.length + 4

/-- The value read, if only blanks follow it. -/
def whole {α : Type} : Option (α × List Char) → Option α
  | some (value, rest) => if (skipBlank rest).isEmpty then some value else none
  | none => none

end Reader

open Reader

def ofText? (text : String) : Option Json :=
  let cs := text.toList
  whole (readValue (fuelFor cs) maxDepth cs)

/-- The value that a text writes, where the members of the outermost object under ignored keys are
left out and checked for their grammar only. -/
def ofTextIgnoring? (ignored : String → Bool) (text : String) : Option Json :=
  let cs := text.toList
  match skipBlank cs with
  | '\x7b' :: rest =>
    whole ((readObject (fuelFor cs) (maxDepth - 1) ignored rest).map fun r => (.object r.1, r.2))
  | _ => ofText? text

end Json
end AmdBundle
