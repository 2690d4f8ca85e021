import AmdBundle.Program.Builder

/-!
# AmdBundle.Proofs.Program.Draft — trees that a builder is to build

A `Draft` is a syntax tree without spans and ids.  It stands for the calls of a builder that build
the tree, from left to right and the children before their parent (`Draft.buildWith`): those of
`Builder` (`Builder.plain`), or those that give up at the first sum that is not a place in a source
(`Builder.checked`).

How far a draft moves the builder is its `width`.  Its span need not lie where the builder has
moved: it begins `inset` places later, if the leftmost part of it is a function with a body, and
`leftReach` places earlier, one for every call that stands in front; and the span of a call ends at
the next free place and not before it (`rightReach`).
-/

namespace AmdBundle

mutual

/-- An expression that is to be built. -/
inductive Draft where
  | str (value : String)
  | ident (name : String)
  | object
  | function (params : List String) (body : List DraftNode)
  | array (elements : List Draft)
  | call (callee : String) (args : List Draft)

inductive DraftNode where
  | expr (e : Draft)
  | tryCatch (block handler : List DraftNode)

end

/-! ### Building -/

namespace Builder

/-- What can be asked of a builder. -/
structure Calls (m : Type → Type) where
  str : String → m Expr
  ident : String → m Expr
  object : m Expr
  function : List String → List Node → m Expr
  array : List Expr → m Expr
  call : String → List Expr → m Expr

def plain : Calls (StateM Builder) where
  str := Builder.str
  ident := Builder.ident
  object := Builder.object
  function := Builder.function
  array := Builder.array
  call callee args := Call.toExpr <$> Builder.call callee args

/-- The sum of two places, if it is a place. -/
def add? (a b : UInt32) : Option UInt32 :=
  if a.toNat + b.toNat < UInt32.size then some (a + b) else none

/-- A span of the given length, if it and the place left free behind it are in a source. -/
def span? (length : Nat) : StateT Builder Option Span := fun b =>
  if length < UInt32.size then do
    let stop ← add? b.offset (UInt32.ofNat length)
    let next ← add? stop 1
    return (⟨b.offset, stop⟩, { b with offset := next })
  else none

/-- An array literal, if the place behind it is in a source. -/
def array? (elements : List Expr) : StateT Builder Option Expr := fun b => do
  let span := b.extent elements
  let next ← add? span.stop 1
  return (.array span elements, { b with offset := next })

/-- A call, if there is an id for it and the place behind its arguments is in a source. -/
def call? (callee : String) (args : List Expr) : StateT Builder Option Expr := fun b => do
  let inner := b.extent args
  let nextId ← add? b.nextId 1
  let stop ← add? inner.stop 1
  return (.call b.nextId ⟨before inner.start, stop⟩ callee args,
    { nextId, offset := max b.offset stop })

/-- The calls of a builder that makes no sum beyond the largest place. -/
def checked : Calls (StateT Builder Option) where
  str value := do return .str (← span? (value.utf8ByteSize + 2)) value
  ident name := do return .ident (← span? name.utf8ByteSize) name
  object := do return .object (← span? 2)
  function params body := do return .function (← span? 8) params body
  array := array?
  call := call?

end Builder

section Build

variable {m : Type → Type} [Monad m] (calls : Builder.Calls m)

mutual

def Draft.buildWith : Draft → m Expr
  | .str value => calls.str value
  | .ident name => calls.ident name
  | .object => calls.object
  | .function params body => do calls.function params (← buildNodesWith body)
  | .array elements => do calls.array (← buildExprsWith elements)
  | .call callee args => do calls.call callee (← buildExprsWith args)

def buildExprsWith : List Draft → m (List Expr)
  | [] => pure []
  | e :: rest => do
    let built ← e.buildWith
    let others ← buildExprsWith rest
    return built :: others

def buildNodesWith : List DraftNode → m (List Node)
  | [] => pure []
  | .expr e :: rest => do
    let built ← e.buildWith
    let others ← buildNodesWith rest
    return .expr built :: others
  | .tryCatch block handler :: rest => do
    let builtBlock ← buildNodesWith block
    let builtHandler ← buildNodesWith handler
    let others ← buildNodesWith rest
    return .tryCatch builtBlock builtHandler :: others

end

end Build

/-! ### Measures -/

/-- How many places past its last own one the span of a draft ends. -/
def Draft.rightReach : Draft → Nat
  | .call _ _ => 1
  | _ => 0

/-- How far the end of the last of some parts is past what they moved the builder by; where there
are no parts, the end is where the builder stands. -/
def endReach (parts : List Draft) : Nat :=
  (parts.getLast?.map Draft.rightReach).getD 1

mutual

/-- How far building the draft moves a builder. -/
def Draft.width : Draft → Nat
  | .str value => value.utf8ByteSize + 3
  | .ident name => name.utf8ByteSize + 1
  | .object => 3
  | .function _ body => widthOfNodes body + 9
  | .array elements => widthOfDrafts elements + endReach elements
  | .call _ args => widthOfDrafts args + endReach args

def widthOfDrafts : List Draft → Nat
  | [] => 0
  | e :: rest => e.width + widthOfDrafts rest

def widthOfNodes : List DraftNode → Nat
  | [] => 0
  | .expr e :: rest => e.width + widthOfNodes rest
  | .tryCatch block handler :: rest =>
    widthOfNodes block + widthOfNodes handler + widthOfNodes rest

end

mutual

def Draft.callCount : Draft → Nat
  | .str _ | .ident _ | .object => 0
  | .function _ body => callCountOfNodes body
  | .array elements => callCountOfDrafts elements
  | .call _ args => callCountOfDrafts args + 1

def callCountOfDrafts : List Draft → Nat
  | [] => 0
  | e :: rest => e.callCount + callCountOfDrafts rest

def callCountOfNodes : List DraftNode → Nat
  | [] => 0
  | .expr e :: rest => e.callCount + callCountOfNodes rest
  | .tryCatch block handler :: rest =>
    callCountOfNodes block + callCountOfNodes handler + callCountOfNodes rest

end

mutual

/-- How many places to the left the span reaches for the calls that stand in front. -/
def Draft.leftReach : Draft → Nat
  | .str _ | .ident _ | .object | .function _ _ => 0
  | .array elements => frontReach elements
  | .call _ args => frontReach args + 1

/-- The same for the first of some drafts. -/
def frontReach : List Draft → Nat
  | [] => 0
  | e :: _ => e.leftReach

end

mutual

/-- How much is built, for the body of a function in front, before the first place of the span. -/
def Draft.inset : Draft → Nat
  | .str _ | .ident _ | .object => 0
  | .function _ body => widthOfNodes body
  | .array elements => frontInset elements
  | .call _ args => frontInset args

/-- The same for the first of some drafts. -/
def frontInset : List Draft → Nat
  | [] => 0
  | e :: _ => e.inset

end

end AmdBundle
