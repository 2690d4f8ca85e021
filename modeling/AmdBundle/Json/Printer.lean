import AmdBundle.Json.Basic
import AmdBundle.Text.Quoted

/-!
# AmdBundle.Json.Printer — writing JSON

The written form of a value on one line, without blanks.
-/

namespace AmdBundle
namespace Json

open Text

mutual

def render : Json → String
  | null => "null"
  | bool value => if value then "true" else "false"
  | number value => value.text
  | string value => Quoted.quote value
  | array items => "[" ++ renderItems items ++ "]"
  | object members => "\x7b" ++ renderMembers members ++ "\x7d"

def renderItems : List Json → String
  | [] => ""
  | [item] => item.render
  | item :: rest => item.render ++ "," ++ renderItems rest

def renderMembers : List (String × Json) → String
  | [] => ""
  | [(key, value)] => Quoted.quote key ++ ":" ++ value.render
  | (key, value) :: rest => Quoted.quote key ++ ":" ++ value.render ++ "," ++ renderMembers rest

end

end Json
end AmdBundle
