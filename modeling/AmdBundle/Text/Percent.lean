import AmdBundle.Text.Bytes

/-!
# AmdBundle.Text.Percent — percent coding

A text is coded byte by byte: letters, digits and a few marks stand for themselves, every other byte
is written `%` and two upper-case hexadecimal digits.  Reading takes a digit of either case, refuses
a `%` that two digits do not follow, and gives the bytes; whether they are a text is for the reader
of the bytes to say.
-/

namespace AmdBundle
namespace Text
namespace Percent

/-- The marks that stand for themselves beside letters and digits. -/
def marks : List Char := ['-', '_', '.', '~', '*', '\'', '(', ')']

/-- Whether a character stands for itself. -/
def isVerbatim (c : Char) : Bool :=
  c.isAlphanum || marks.contains c

def encodeByte (b : UInt8) : List Char :=
  if isVerbatim (Char.ofUInt8 b) then [Char.ofUInt8 b]
  else ['%', hexDigit (b.toNat / 16), hexDigit (b.toNat % 16)]

def encode (text : String) : String :=
  String.ofList ((utf8Bytes text).flatMap encodeByte)

/-- The bytes that a written form stands for; `none` if a `%` is not followed by two hexadecimal
digits. -/
def decode? : List Char → Option (List UInt8)
  | [] => some []
  | c :: rest =>
    if c = '%' then
      match rest with
      | hi :: lo :: rest => do
        let h ← hexValue? hi
        let l ← hexValue? lo
        let bytes ← decode? rest
        return UInt8.ofNat (16 * h + l) :: bytes
      | _ => none
    else (decode? rest).map (String.utf8EncodeChar c ++ ·)

end Percent
end Text
end AmdBundle
