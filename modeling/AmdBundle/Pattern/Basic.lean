import AmdBundle.Pattern.CharSet

/-!
# AmdBundle.Pattern.Basic — alias patterns

The abstract form of the regular expressions that aliases are written in.  Letters have a case only
within ASCII, and what counts as a word, a digit or a blank is ASCII also.

Two limits keep a pattern small enough: `height`, how deep it nests, and `machineCost`, the size of
the machine it stands for.
-/

namespace AmdBundle

/-- A condition on the place between two characters. -/
inductive Look where
  | textStart
  | textEnd
  /-- After a line feed, or at the start. -/
  | lineStart
  /-- Before a line feed, or at the end. -/
  | lineEnd
  /-- `lineStart` where a carriage return ends a line also, and one with its line feed as one. -/
  | returnStart
  /-- `lineEnd` where a carriage return ends a line also, and one with its line feed as one. -/
  | returnEnd
  | wordBoundary
  | noWordBoundary
  | wordStart
  | wordEnd
  /-- No word character before. -/
  | wordStartHalf
  /-- No word character behind. -/
  | wordEndHalf
  deriving BEq, Repr

inductive Regex where
  | empty
  | char (c : Char)
  | set (set : CharSet)
  | look (look : Look)
  /-- Groups have numbers from 1 on, and may have names. -/
  | group (number : Nat) (name : Option String) (body : Regex)
  /-- At least `min` times and at most `max` times, if there is a bound; `greedy` is whether more is
  preferred. -/
  | repeated (min : Nat) (max : Option Nat) (greedy : Bool) (body : Regex)
  | sequence (parts : List Regex)
  /-- The first branch is preferred. -/
  | choice (branches : List Regex)
  deriving BEq, Repr, Inhabited

namespace Look

def isWord (c : Option Char) : Bool :=
  c.any CharSet.wordChars.contains

/-- Whether the condition holds between two characters; `none` is the end of the text on that side.
-/
def holds (before behind : Option Char) : Look → Bool
  | textStart => before.isNone
  | textEnd => behind.isNone
  | lineStart => before.isNone || before == some '\n'
  | lineEnd => behind.isNone || behind == some '\n'
  | returnStart =>
    before.isNone || before == some '\n' || (before == some '\r' && behind != some '\n')
  | returnEnd =>
    behind.isNone || behind == some '\r' || (behind == some '\n' && before != some '\r')
  | wordBoundary => isWord before != isWord behind
  | noWordBoundary => isWord before == isWord behind
  | wordStart => !isWord before && isWord behind
  | wordEnd => isWord before && !isWord behind
  | wordStartHalf => !isWord before
  | wordEndHalf => !isWord behind

end Look

namespace Regex

/-- The expression for a sequence; of one part it is that part. -/
def ofSequence : List Regex → Regex
  | [] => empty
  | [part] => part
  | parts => sequence parts

/-- The expression for a choice; of one branch it is that branch. -/
def ofChoice : List Regex → Regex
  | [branch] => branch
  | branches => choice branches

/-- The expression for a repetition; never at all is the empty one and exactly once is the body. -/
def ofRepeated (min : Nat) (max : Option Nat) (greedy : Bool) (body : Regex) : Regex :=
  if min == 0 && max == some 0 then empty
  else if min == 1 && max == some 1 then body
  else repeated min max greedy body

mutual

/-- Whether the expression can match the empty text, conditions aside. -/
def nullable : Regex → Bool
  | empty => true
  | char _ => false
  | set _ => false
  | look _ => true
  | group _ _ body => body.nullable
  | repeated min _ _ body => min == 0 || body.nullable
  | sequence parts => allNullable parts
  | choice branches => anyNullable branches

def allNullable : List Regex → Bool
  | [] => true
  | part :: rest => part.nullable && allNullable rest

def anyNullable : List Regex → Bool
  | [] => false
  | branch :: rest => branch.nullable || anyNullable rest

end

mutual

/-- How many expressions are nested in each other around the innermost one. -/
def height : Regex → Nat
  | empty => 0
  | char _ => 0
  | set _ => 0
  | look _ => 0
  | group _ _ body => body.height + 1
  | repeated _ _ _ body => body.height + 1
  | sequence parts => maxHeight parts + 1
  | choice branches => maxHeight branches + 1

def maxHeight : List Regex → Nat
  | [] => 0
  | part :: rest => max part.height (maxHeight rest)

end

/-- The size of one state of the machine, in bytes. -/
def stateCost : Nat := 32

/-- The size of a state that leads to `n` others. -/
def forkCost (n : Nat) : Nat := stateCost + 4 * n

mutual

/-- The size, in bytes, of the states that an expression needs.  A repetition counts its body as
often as the machine has to hold it. -/
def cost : Regex → Nat
  | empty => stateCost
  | char _ => stateCost
  | set s => stateCost + 8 * s.ranges.length
  | look _ => stateCost
  | group _ _ body => body.cost + 2 * stateCost
  | repeated min max _ body =>
    let once := body.cost
    let times (n : Nat) := if n = 0 then stateCost else n * once
    match max with
    | none =>
      if min = 0 ∧ body.nullable then once + 2 * forkCost 2 + stateCost
      else Nat.max min 1 * once + forkCost 2
    | some max =>
      if min = max then times min
      else if min = 0 ∧ max = 1 then once + forkCost 2 + stateCost
      else times min + stateCost + (max - min) * (forkCost 2 + once)
  | sequence parts => totalCost parts
  | choice branches => totalCost branches + forkCost branches.length + stateCost

def totalCost : List Regex → Nat
  | [] => 0
  | part :: rest => part.cost + totalCost rest

end

mutual

/-- The groups of an expression, by number and name. -/
def groups : Regex → List (Nat × Option String)
  | empty => []
  | char _ => []
  | set _ => []
  | look _ => []
  | group number name body => (number, name) :: body.groups
  | repeated _ _ _ body => body.groups
  | sequence parts => groupsOfAll parts
  | choice branches => groupsOfAll branches

def groupsOfAll : List Regex → List (Nat × Option String)
  | [] => []
  | part :: rest => part.groups ++ groupsOfAll rest

end

/-- The size, in bytes, of what is kept for every group number up to the largest in use. -/
def groupCost : Nat := 16

/-- The size, in bytes, of what is kept for the name of a group. -/
def nameCost (name : Option String) : Nat :=
  (name.map fun name => name.utf8ByteSize + 4).getD 0

/-- The size, in bytes, of the machine for an expression: besides the states of the expression there
are three around it, and the whole of it is the group with the number 0. -/
def machineCost (r : Regex) : Nat :=
  let last := r.groups.foldl (fun last group => max last group.1) 0
  let names := r.groups.foldl (fun sum group => sum + nameCost group.2) 0
  r.cost + 3 * stateCost + (last + 1) * groupCost + names

def maxNesting : Nat := 50

/-- How large the machine for an expression may be, in bytes. -/
def maxCost : Nat := 10 * 1024 * 1024

/-- Whether an expression keeps to the limits. -/
def isSmall (r : Regex) : Bool :=
  r.height ≤ maxNesting && r.machineCost ≤ maxCost

end Regex
end AmdBundle
