/-!
# AmdBundle.Json.Number — JSON numbers

A number written without point or exponent that fits into 64 bits is an integer; every other one is
a double.

The double is reached in two steps (`NumberText.toFloat`).  The leading digits that fit into 64 bits
are taken as a whole number, and the digits behind them only for their place; the number is made a
double, and that is multiplied or divided by a power of ten.  Each step rounds to the nearest
double, so that the outcome may be a neighbour of the double that is nearest to the written number.
A number that comes out as infinite has no value.
-/

namespace AmdBundle

inductive JsonNumber where
  /-- A whole number of at most 64 bits, signed or unsigned. -/
  | integer (value : Int)
  /-- The double `mantissa * 2 ^ exponent`; `negative` is its sign, kept for zero also. -/
  | double (negative : Bool) (mantissa : Nat) (exponent : Int)
  deriving DecidableEq, Repr

namespace JsonNumber

def isZero : JsonNumber → Bool
  | integer value => value == 0
  | double _ mantissa _ => mantissa == 0

/-- The written form: an integer as such, a double by all of its decimal digits. -/
def text : JsonNumber → String
  | integer value => toString value
  | double negative mantissa exponent =>
    let digits :=
      if 0 ≤ exponent then toString (mantissa * Nat.pow 2 exponent.toNat) ++ "e0"
      else toString (mantissa * Nat.pow 5 exponent.natAbs) ++ "e" ++ toString exponent
    (if negative then "-" else "") ++ digits

/-- The double with the given sign and size; `none` if it is not finite. -/
def ofFloat? (negative : Bool) (size : Float) : Option JsonNumber :=
  let bits := size.toBits.toNat
  let fraction := bits % 0x10000000000000
  let scale := bits / 0x10000000000000
  if 0x7FF ≤ scale then none
  else if scale = 0 then some (double negative fraction (-1074))
  else some (double negative (0x10000000000000 + fraction) ((scale : Int) - 1075))

end JsonNumber

/-- A number as it is written: sign, digits before and behind the point, and power of ten. -/
structure NumberText where
  negative : Bool
  whole : List Char
  fraction : Option (List Char)
  exponent : Option Int
  deriving DecidableEq, Repr

namespace NumberText

/-- The number that digits write behind those of `n`. -/
def digitsValue (n : Nat) (digits : List Char) : Nat :=
  digits.foldl (fun n d => n * 10 + (d.toNat - '0'.toNat)) n

/-- How many of the digits can be written behind those of `n` before 64 bits are too few. -/
def fitting (n : Nat) : List Char → Nat
  | [] => 0
  | d :: digits =>
    let next := digitsValue n [d]
    if next < UInt64.size then fitting next digits + 1 else 0

def powerOfTen (n : Nat) : Float := Float.ofScientific 1 false n

/-- The largest power of ten that is a double. -/
def maxPower : Nat := 308

/-- A double times a power of ten; of the negative powers those beyond the largest one are taken in
two divisions, and more than two leave nothing. -/
def scale (f : Float) (exponent : Int) : Float :=
  let n := exponent.natAbs
  if 0 ≤ exponent then
    if n ≤ maxPower then f * powerOfTen n else if f == 0 then f else f / 0
  else if n ≤ maxPower then f / powerOfTen n
  else if n ≤ 2 * maxPower then f / powerOfTen maxPower / powerOfTen (n - maxPower)
  else 0

/-- The double for a number, its sign aside. -/
def toFloat (number : NumberText) : Float :=
  let fraction := number.fraction.getD []
  let inWhole := fitting 0 number.whole
  let leading := digitsValue 0 (number.whole.take inWhole)
  let inFraction := fitting leading fraction
  let significand := digitsValue leading (fraction.take inFraction)
  scale (UInt64.ofNat significand).toFloat
    (number.exponent.getD 0 + (number.whole.length - inWhole : Nat) - inFraction)

/-- The value of a number, if it has one. -/
def value? (number : NumberText) : Option JsonNumber :=
  let n := digitsValue 0 number.whole
  let isInteger :=
    number.fraction.isNone && number.exponent.isNone &&
      if number.negative then n != 0 && n ≤ 0x8000000000000000 else n < UInt64.size
  if isInteger then some (.integer (if number.negative then -(n : Int) else n))
  else JsonNumber.ofFloat? number.negative number.toFloat

end NumberText
end AmdBundle
