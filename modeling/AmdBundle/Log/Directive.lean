import AmdBundle.Log.FieldPattern
import AmdBundle.Log.Level
import AmdBundle.Text.Blank
import AmdBundle.Text.Bytes
import AmdBundle.Text.Letter
import AmdBundle.Text.Split

/-!
# AmdBundle.Log.Directive — log directives

A directive gives a level to the targets that begin with a text.  It may be limited further, in
brackets: to what happens inside a span of a given name, and by a field in braces, with or without a
value.  One that names a span or a value is for events inside spans only.

The written form is `level`, or `target` with everything let through, or `target=level`; brackets
stand behind the target or in its place.
-/

namespace AmdBundle

/-- A field that is asked for, and the value that it must have. -/
structure FieldMatch where
  name : String
  value : Option String
  deriving DecidableEq, Repr

namespace FieldMatch

/-- Whether a text is a number: decimal digits with or without a point, sign and exponent, or the
name of one that is not finite. -/
def isNumber (text : String) : Bool :=
  let unsigned (cs : List Char) := if ['+', '-'].contains (cs.headD ' ') then cs.tail else cs
  let cs := unsigned text.toList
  let (whole, rest) := cs.span Char.isDigit
  let (fraction, rest) := if rest.head? = some '.' then rest.tail.span Char.isDigit else ([], rest)
  let exponent := unsigned rest.tail
  let isDecimal :=
    !(whole.isEmpty && fraction.isEmpty) &&
      (rest.isEmpty || (['e', 'E'].contains (rest.headD ' ') && !exponent.isEmpty &&
        exponent.all Char.isDigit))
  isDecimal || ["inf", "infinity", "nan"].contains (String.ofList (cs.map Char.toLower))

/-- The field that a text writes, if its value, behind an equals sign, is a number or a pattern.
What is behind a second equals sign has no effect. -/
def ofText? (text : String) : Option FieldMatch :=
  match Text.split '=' text with
  | name :: value :: _ =>
    if isNumber value || FieldPattern.isWellFormed value then some ⟨name, some value⟩ else none
  | _ => some ⟨text, none⟩

end FieldMatch

/-- A level for the targets that begin with a text; no text stands for all targets. -/
structure LogDirective where
  target : Option String := none
  span : Option String := none
  field : Option FieldMatch := none
  level : LogLevel := .trace
  deriving DecidableEq, Repr

namespace LogDirective

/-- Whether the directive is for events inside spans only. -/
def isForSpans (directive : LogDirective) : Bool :=
  directive.span.isSome || directive.field.any (·.value.isSome)

/-- Whether a directive may begin with the character. -/
def startsDirective (c : Char) : Bool :=
  Text.isLetter c || Text.isNumeral c || c == '-' || c == ':' || c == '_' || c == '['

/-- The directive with the level that stands behind it: nothing, or from an equals sign on.  `place`
is where that begins. -/
def withLevel? (text : String) (directive : LogDirective) (place : Nat) :
    List Char → Option LogDirective
  | [] => some directive
  | '=' :: _ => do
    let level ← Text.cut? text (place + 1) text.utf8ByteSize
    if level.isEmpty then return directive
    return { directive with level := ← LogLevel.ofText? level }
  | _ => none

def bytes (cs : List Char) : Nat := (String.ofList cs).utf8ByteSize

/-- The directive for a target with what is in brackets behind it, from behind the opening one.
`place` is where that begins. -/
def withBrackets? (text : String) (target : Option String) (place : Nat) (cs : List Char) :
    Option LogDirective := do
  let (name, rest) := cs.span fun c => c != ']' && c != '\x7b'
  let stop := place + bytes name
  let span ← Text.cut? text place stop
  match rest with
  | ']' :: rest => withLevel? text { target, span := some span } (stop + 1) rest
  | '\x7b' :: rest =>
    let (written, rest) := rest.span (· != '\x7d')
    let behind := stop + 1 + bytes written
    match written, rest with
    | _ :: _, '\x7d' :: ']' :: rest => do
      let field ← FieldMatch.ofText? (← Text.cut? text (stop + 1) behind)
      let span := if name.isEmpty then none else some span
      withLevel? text { target, span, field := some field } (behind + 2) rest
    | _, _ => none
  | _ => none

/-- The directive that a text writes.  Where its parts are is found with the blanks at both ends
left out, but the parts are cut from the text as it stands: with blanks in front of it they begin
and end too early. -/
def ofText? (text : String) : Option LogDirective := do
  let start := text.toList.dropWhile Text.isBlank
  let written := (start.reverse.dropWhile Text.isBlank).reverse
  if !startsDirective (← written.head?) then none
  let (name, rest) := written.span fun c => c != '=' && c != '['
  match rest with
  | [] =>
    match LogLevel.ofText? text with
    | some level => return { level }
    | none => return { target := some text }
  | '[' :: rest => do
    let target ← Text.cut? text 0 (bytes name)
    withBrackets? text (if name.isEmpty then none else some target) (bytes name + 1) rest
  | rest => do
    let target ← Text.cut? text 0 (bytes name)
    withLevel? text { target := some target } (bytes name) rest

def appliesTo (directive : LogDirective) (target : String) : Bool :=
  Text.startsWith target (directive.target.getD "")

/-- Whether two directives are for the same events. -/
def sameEvents (a b : LogDirective) : Bool :=
  a.target == b.target && a.span == b.span && a.field == b.field

/-- Whether a directive gives way to another one that applies also: the longer target has
precedence, then a field before none, then the name of the field that comes later. -/
def yieldsTo (a b : LogDirective) : Bool :=
  let length (directive : LogDirective) : Nat := (directive.target.getD "").utf8ByteSize
  if length a ≠ length b then length a < length b
  else
    match a.field, b.field with
    | none, field => field.isSome
    | some _, none => false
    | some field, some other => field.name < other.name

end LogDirective
end AmdBundle
