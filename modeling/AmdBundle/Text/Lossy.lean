import AmdBundle.Text.Bytes

/-!
# AmdBundle.Text.Lossy — bytes shown as a text

Bytes of any kind, read as UTF-8 as far as they are.  Where they are not, every longest part that
could still begin a character is shown as one replacement character, and so is every byte that no
character begins with.
-/

namespace AmdBundle
namespace Text

/-- The character that is shown for bytes that are none. -/
def replacement : Char := '\uFFFD'

/-- A character of several bytes, of which the first ones have been read. -/
structure Begun where
  /-- The number that the bytes read so far give. -/
  bits : Nat
  /-- How many bytes come behind the next one. -/
  more : Nat
  /-- The least value of the next byte. -/
  low : Nat
  /-- The greatest value of the next byte. -/
  high : Nat
  deriving DecidableEq, Repr

/-- What the first byte of a character begins.  The bounds on the second byte leave out the longer
forms of shorter characters, the surrogates, and what is beyond the last character. -/
def Begun.ofByte? (b : Nat) : Option Begun :=
  if 0xC2 ≤ b ∧ b ≤ 0xDF then some ⟨b - 0xC0, 0, 0x80, 0xBF⟩
  else if 0xE0 ≤ b ∧ b ≤ 0xEF then
    some ⟨b - 0xE0, 1, if b = 0xE0 then 0xA0 else 0x80, if b = 0xED then 0x9F else 0xBF⟩
  else if 0xF0 ≤ b ∧ b ≤ 0xF4 then
    some ⟨b - 0xF0, 2, if b = 0xF0 then 0x90 else 0x80, if b = 0xF4 then 0x8F else 0xBF⟩
  else none

/-- What a byte shows, and what it begins, where no character has begun. -/
def readFirst (b : Nat) : List Char × Option Begun :=
  if b < 0x80 then ([Char.ofNat b], none)
  else
    match Begun.ofByte? b with
    | some begun => ([], some begun)
    | none => ([replacement], none)

/-- What a byte shows, and what it leaves begun, where a character has begun. -/
def Begun.read (begun : Begun) (b : Nat) : List Char × Option Begun :=
  if begun.low ≤ b ∧ b ≤ begun.high then
    let bits := begun.bits * 64 + (b - 0x80)
    match begun.more with
    | 0 => ([Char.ofNat bits], none)
    | more + 1 => ([], some ⟨bits, more, 0x80, 0xBF⟩)
  else
    let (shown, next) := readFirst b
    (replacement :: shown, next)

/-- What bytes show behind those of the character that has begun, if one has. -/
def lossyFrom : Option Begun → List UInt8 → List Char
  | none, [] => []
  | some _, [] => [replacement]
  | none, b :: rest => (readFirst b.toNat).1 ++ lossyFrom (readFirst b.toNat).2 rest
  | some begun, b :: rest => (begun.read b.toNat).1 ++ lossyFrom (begun.read b.toNat).2 rest

/-- The text that bytes show. -/
def lossy (bytes : List UInt8) : String := String.ofList (lossyFrom none bytes)

end Text
end AmdBundle
