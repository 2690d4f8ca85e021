import AmdBundle.Text.Bytes

/-!
# AmdBundle.Text.Quoted — quoted texts

A text between double quotes as JSON and script sources write it: the quote and the backslash are
escaped, and so is every control character below the space, by its short name if it has one and by
four lower-case hexadecimal digits otherwise.  All other characters stand for themselves.
-/

namespace AmdBundle
namespace Text
namespace Quoted

/-- The four hexadecimal digits of a code point below `0x10000`, in lower case. -/
def hex4 (n : Nat) : List Char :=
  [n / 0x1000 % 16, n / 0x100 % 16, n / 0x10 % 16, n % 16].map fun d => (hexDigit d).toLower

def encodeChar (c : Char) : List Char :=
  match c with
  | '"' => ['\\', '"']
  | '\\' => ['\\', '\\']
  | '\x08' => ['\\', 'b']
  | '\t' => ['\\', 't']
  | '\n' => ['\\', 'n']
  | '\x0c' => ['\\', 'f']
  | '\r' => ['\\', 'r']
  | c => if c.toNat < 0x20 then '\\' :: 'u' :: hex4 c.toNat else [c]

def quote (text : String) : String :=
  String.ofList ('"' :: text.toList.flatMap encodeChar ++ ['"'])

end Quoted
end Text
end AmdBundle
