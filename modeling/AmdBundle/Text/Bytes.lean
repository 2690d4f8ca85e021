/-!
# AmdBundle.Text.Bytes — texts as UTF-8 bytes

* `utf8Bytes` gives the bytes of a text and `ofUtf8?` reads them back (`ofUtf8?_utf8Bytes`); bytes
  that are not the UTF-8 form of any text have no reading.
* `cut?` gives the part of a text between two places, which are counted in bytes.
* `hexDigit` writes a number below sixteen and `hexValue?` reads a digit of either case.
-/

namespace AmdBundle
namespace Text

def utf8Bytes (text : String) : List UInt8 :=
  text.toByteArray.data.toList

/-- The text with the given UTF-8 form, if there is one. -/
def ofUtf8? (bytes : List UInt8) : Option String :=
  String.fromUTF8? ⟨bytes.toArray⟩

@[simp] theorem ofUtf8?_utf8Bytes (text : String) : ofUtf8? (utf8Bytes text) = some text := by
  have h : (⟨(utf8Bytes text).toArray⟩ : ByteArray) = text.toByteArray := by simp [utf8Bytes]
  rw [ofUtf8?, h, String.fromUTF8?, dif_pos text.isValidUTF8]
  rfl

/-- The part of a text between two places, counted in bytes; `none` if one of them is inside a
character. -/
def cut? (text : String) (start stop : Nat) : Option String :=
  ofUtf8? (((utf8Bytes text).take stop).drop start)

def hexValue? (c : Char) : Option Nat :=
  if '0' ≤ c ∧ c ≤ '9' then some (c.toNat - '0'.toNat)
  else if 'a' ≤ c ∧ c ≤ 'f' then some (c.toNat - 'a'.toNat + 10)
  else if 'A' ≤ c ∧ c ≤ 'F' then some (c.toNat - 'A'.toNat + 10)
  else none

def hexDigit (n : Nat) : Char :=
  if n < 10 then Char.ofNat ('0'.toNat + n) else Char.ofNat ('A'.toNat + (n - 10))

theorem hexValue?_hexDigit {n : Nat} (h : n < 16) : hexValue? (hexDigit n) = some n := by
  have key : ∀ k : Fin 16, hexValue? (hexDigit k) = some k.val := by decide
  exact key ⟨n, h⟩

end Text
end AmdBundle
