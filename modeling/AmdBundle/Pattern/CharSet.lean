/-!
# AmdBundle.Pattern.CharSet — sets of characters

A set is a list of inclusive ranges of code points, in order, apart from each other and not touching
(`CharSet.ofRanges`).  Ranges may run over code points that are no characters; no character is
affected.  A range that ends before it starts holds nothing; a complement has one where nothing but
surrogates lies between two ranges.
-/

namespace AmdBundle

structure CharSet where
  ranges : List (Nat × Nat)
  deriving BEq, Repr

namespace CharSet

def lastCode : Nat := 0x10FFFF

/-- Adds a range to ranges that come in order, last one first, none of which starts behind it. -/
def addLast (range : Nat × Nat) : List (Nat × Nat) → List (Nat × Nat)
  | [] => [range]
  | last :: rest =>
    if range.1 ≤ last.2 + 1 then (last.1, max last.2 range.2) :: rest else range :: last :: rest

/-- The set of the given ranges, in any order and with overlaps. -/
def ofRanges (ranges : List (Nat × Nat)) : CharSet :=
  let sorted := ranges.mergeSort fun a b => a.1 < b.1 || (a.1 == b.1 && a.2 ≤ b.2)
  ⟨(sorted.foldl (fun done range => addLast range done) []).reverse⟩

/-- The code point behind another one, the surrogates left out. -/
def nextCode (code : Nat) : Nat := if code = 0xD7FF then 0xE000 else code + 1

/-- The code point before another one, the surrogates left out. -/
def prevCode (code : Nat) : Nat := if code = 0xE000 then 0xD7FF else code - 1

/-- The ranges between those of a set, from `start` on. -/
def gaps (start : Nat) : List (Nat × Nat) → List (Nat × Nat)
  | [] => if start ≤ lastCode then [(start, lastCode)] else []
  | range :: rest =>
    let behind := gaps (nextCode range.2) rest
    if range.1 ≠ 0 then (start, prevCode range.1) :: behind else behind

def complement (set : CharSet) : CharSet := ⟨gaps 0 set.ranges⟩

/-- The letters of the other case for a range: the capitals for its small ASCII letters, or, if it
has none of these, the small letters for its capitals. -/
def otherCase? (range : Nat × Nat) : Option (Nat × Nat) :=
  let upper := (max range.1 'A'.toNat, min range.2 'Z'.toNat)
  let lower := (max range.1 'a'.toNat, min range.2 'z'.toNat)
  if lower.1 ≤ lower.2 then some (lower.1 - 32, lower.2 - 32)
  else if upper.1 ≤ upper.2 then some (upper.1 + 32, upper.2 + 32)
  else none

/-- The set with the letters of the other case for each of its ranges. -/
def foldCase (set : CharSet) : CharSet :=
  ofRanges (set.ranges ++ set.ranges.filterMap otherCase?)

def contains (set : CharSet) (c : Char) : Bool :=
  set.ranges.any fun r => r.1 ≤ c.toNat && c.toNat ≤ r.2

def range (first last : Char) : Nat × Nat := (first.toNat, last.toNat)

def digits : CharSet := ⟨[range '0' '9']⟩

/-- The ASCII blanks: tab, line feed, vertical tab, form feed, carriage return, space. -/
def blanks : CharSet := ⟨[(9, 13), (32, 32)]⟩

/-- The ASCII letters and digits and the underscore. -/
def wordChars : CharSet := ⟨[range '0' '9', range 'A' 'Z', range '_' '_', range 'a' 'z']⟩

/-- The classes that have a name between `[:` and `:]`. -/
def named? : String → Option CharSet
  | "alnum" => some ⟨[range '0' '9', range 'A' 'Z', range 'a' 'z']⟩
  | "alpha" => some ⟨[range 'A' 'Z', range 'a' 'z']⟩
  | "ascii" => some ⟨[(0, 0x7F)]⟩
  | "blank" => some ⟨[(9, 9), (32, 32)]⟩
  | "cntrl" => some ⟨[(0, 0x1F), (0x7F, 0x7F)]⟩
  | "digit" => some digits
  | "graph" => some ⟨[range '!' '~']⟩
  | "lower" => some ⟨[range 'a' 'z']⟩
  | "print" => some ⟨[range ' ' '~']⟩
  | "punct" => some ⟨[range '!' '/', range ':' '@', range '[' '\x60', range '\x7b' '~']⟩
  | "space" => some blanks
  | "upper" => some ⟨[range 'A' 'Z']⟩
  | "word" => some wordChars
  | "xdigit" => some ⟨[range '0' '9', range 'A' 'F', range 'a' 'f']⟩
  | _ => none

end CharSet
end AmdBundle
