import AmdBundle.Text.Percent
import AmdBundle.Text.Split

/-!
# AmdBundle.AbsMid.Marker — an absolute id carried in a query

A request can carry the absolute id of its module: behind `?absMid=`, or `&absMid=` where a query is
there already, in percent coding.  The value runs to the end of the request and has no `!` and no
`&` in it.

* `attach` adds a marker.
* `detach` takes off the last one; where the value does not decode it says why.
-/

namespace AmdBundle
namespace AbsMid
namespace Marker

open Text

/-- What a marker begins with, behind its `?` or `&`. -/
def key : String := "absMid="

/-- Why the value of a marker does not decode. -/
inductive Fault where
  | badEscape
  | invalidText
  deriving DecidableEq, Repr

namespace Fault

def text : Fault → String
  | badEscape => "'%' not followed by two hex digits"
  | invalidText => "not valid UTF-8"

end Fault

/-- A marker whose value does not decode. -/
structure Malformed where
  value : String
  fault : Fault
  deriving DecidableEq, Repr

namespace Malformed

def message (error : Malformed) : String :=
  "Malformed absMid value '" ++ error.value ++ "': " ++ error.fault.text

end Malformed

/-- Whether a character ends a value. -/
def endsValue (c : Char) : Bool := c == '!' || c == '&'

/-- The value of a marker that the characters are, from its `?` or `&` on. -/
def valueAt? : List Char → Option (List Char)
  | [] => none
  | c :: cs =>
    if c = '?' ∨ c = '&' then
      match key.toList.isPrefixOf? cs with
      | some value => if value.any endsValue then none else some value
      | none => none
    else none

/-- The last marker: what is before it, and its value. -/
def find? : List Char → Option (List Char × List Char)
  | [] => none
  | c :: cs =>
    match find? cs with
    | some (before, value) => some (c :: before, value)
    | none => (valueAt? (c :: cs)).map ([], ·)

/-- The text that a value stands for. -/
def decodeValue (value : List Char) : Except Malformed String :=
  match Percent.decode? value with
  | none => .error ⟨String.ofList value, .badEscape⟩
  | some bytes =>
    match ofUtf8? bytes with
    | none => .error ⟨String.ofList value, .invalidText⟩
    | some text => .ok text

/-- The request without its last marker, and the id that this one carries; `none` if there is no
marker. -/
def detach (request : String) : Except Malformed (Option (String × String)) :=
  match find? request.toList with
  | none => .ok none
  | some (before, value) =>
    match decodeValue value with
    | .error error => .error error
    | .ok absMid => .ok (some (String.ofList before, absMid))

/-- The request with a marker that carries the id. -/
def attach (request absMid : String) : String :=
  request ++ (if hasChar '?' request then "&" else "?") ++ key ++ Percent.encode absMid

end Marker
end AbsMid
end AmdBundle
