import AmdBundle.Program.Basic

/-!
# AmdBundle.Program.Builder — syntax trees with spans

Builds trees bottom up, children from left to right before their parent.  Spans follow each other in
the source, and every call gets an id of its own.
-/

namespace AmdBundle

/-- Where the next span starts, and the id of the next call. -/
structure Builder where
  nextId : UInt32 := 0
  offset : UInt32 := 0
  deriving DecidableEq, Repr

namespace Builder

def lastOffset : UInt32 := 0xFFFFFFFF

/-- The sum, or the largest place if the sum is beyond it. -/
def satAdd (a b : UInt32) : UInt32 :=
  if a ≤ lastOffset - b then a + b else lastOffset

/-- The place before, or the first. -/
def before (a : UInt32) : UInt32 :=
  if a = 0 then 0 else a - 1

/-- A span of the given length, with a place left free behind it. -/
def span (length : Nat) : StateM Builder Span := fun b =>
  let length := if length < UInt32.size then UInt32.ofNat length else lastOffset - b.offset
  let stop := satAdd b.offset length
  (⟨b.offset, stop⟩, { b with offset := satAdd stop 1 })

/-- A string literal; its quotes belong to it. -/
def str (value : String) : StateM Builder Expr := do
  return .str (← span (value.utf8ByteSize + 2)) value

def ident (name : String) : StateM Builder Expr := do
  return .ident (← span name.utf8ByteSize) name

def object : StateM Builder Expr := do
  return .object (← span 2)

def function (params : List String) (body : List Node) : StateM Builder Expr := do
  return .function (← span 8) params body

/-- From the start of the first expression to the end of the last one. -/
def extent (b : Builder) (parts : List Expr) : Span :=
  { start := (parts.head?.map fun e => e.span.start).getD b.offset
    stop := (parts.getLast?.map fun e => e.span.stop).getD b.offset }

/-- An array literal; it spans its elements. -/
def array (elements : List Expr) : StateM Builder Expr := fun b =>
  let span := b.extent elements
  (.array span elements, { b with offset := span.stop + 1 })

/-- A call; its span is one place wider than its arguments on both sides. -/
def call (callee : String) (args : List Expr) : StateM Builder Call := fun b =>
  let inner := b.extent args
  ({ id := b.nextId, span := ⟨before inner.start, inner.stop + 1⟩, callee, args },
    { nextId := b.nextId + 1, offset := max b.offset (inner.stop + 1) })

end Builder
end AmdBundle
