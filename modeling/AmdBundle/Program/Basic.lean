/-!
# AmdBundle.Program.Basic — syntax trees

The shapes of a program that AMD handling looks at; every other expression is `Expr.other`.
`Expr.evaluate` tells what is known of an expression without running it.
-/

namespace AmdBundle

/-- A range of bytes in a source. -/
structure Span where
  start : UInt32 := 0
  stop : UInt32 := 0
  deriving DecidableEq, Repr, Inhabited

mutual

inductive Expr where
  | str (span : Span) (value : String)
  | array (span : Span) (elements : List Expr)
  | function (span : Span) (params : List String) (body : List Node)
  | object (span : Span)
  | ident (span : Span) (name : String)
  /-- A call of a named function; `id` tells the calls of one file apart. -/
  | call (id : UInt32) (span : Span) (callee : String) (args : List Expr)
  | other (span : Span)

inductive Node where
  | expr (e : Expr)
  | tryCatch (block handler : List Node)

end

instance : Inhabited Expr := ⟨.other default⟩

instance : Inhabited Node := ⟨.expr default⟩

structure Call where
  id : UInt32
  span : Span
  callee : String
  args : List Expr

namespace Call

def toExpr (call : Call) : Expr := .call call.id call.span call.callee call.args

end Call

/-- What is known of an expression without running it. -/
inductive Evaluated where
  | string (value : String)
  /-- An array of nothing but string literals. -/
  | constArray (values : List String)
  | dynamic
  deriving DecidableEq, Repr

namespace Evaluated

def isString : Evaluated → Bool
  | string _ => true
  | _ => false

def isConstArray : Evaluated → Bool
  | constArray _ => true
  | _ => false

end Evaluated

namespace Expr

def span : Expr → Span
  | str span _ => span
  | array span _ => span
  | function span _ _ => span
  | object span => span
  | ident span _ => span
  | call _ span _ _ => span
  | other span => span

def literal? : Expr → Option String
  | str _ value => some value
  | _ => none

/-- The elements of an array literal. -/
def elements? : Expr → Option (List Expr)
  | array _ elements => some elements
  | _ => none

def isArray : Expr → Bool
  | array _ _ => true
  | _ => false

def isFunction : Expr → Bool
  | function _ _ _ => true
  | _ => false

def evaluate : Expr → Evaluated
  | str _ value => .string value
  | array _ elements =>
    match elements.mapM literal? with
    | some values => .constArray values
    | none => .dynamic
  | _ => .dynamic

end Expr
end AmdBundle
