import AmdBundle.Pattern.Basic

/-!
# AmdBundle.Pattern.Machine — the machine for a pattern

A machine is a list of states.  Some wait for a character, some look at the place, some go on at
several states at once, in order of preference; one accepts.  `Regex.machine` builds the machine for
an expression from behind: a part is given the state at which matching goes on behind it, and tells
the state at which it begins.

A repetition holds its body as often as its bounds say.  Where it has no upper bound, a fork behind
the last copy leads back to the beginning of that copy or out.  A body that can match nothing gets a
second fork in front, so that going in once more and leaving keep their order of preference.
-/

namespace AmdBundle

/-- A state of a machine; states lead to others by their places. -/
inductive MachineState where
  | accept
  | char (c : Char) (next : Nat)
  | set (set : CharSet) (next : Nat)
  | look (look : Look) (next : Nat)
  /-- Goes on at all of the states, the first one preferred. -/
  | fork (nexts : List Nat)
  deriving BEq, Repr

namespace MachineState

def accepts : MachineState → Bool
  | accept => true
  | _ => false

/-- The state behind a character, if the state waits for that character. -/
def take? (c : Char) : MachineState → Option Nat
  | char d next => if c = d then some next else none
  | set s next => if s.contains c then some next else none
  | _ => none

end MachineState

/-- A machine: its states, and the place of the one it begins with. -/
structure Machine where
  states : Array MachineState
  start : Nat
  deriving BEq, Repr

namespace Machine

/-- A part of a machine: from the place of the state behind it and the states so far, the place of
the state it begins with, and the states with its own. -/
abbrev Part : Type := Nat → Array MachineState → Nat × Array MachineState

def emit (state : MachineState) (states : Array MachineState) : Nat × Array MachineState :=
  (states.size, states.push state)

/-- Where a fork leads that begins a round or leaves. -/
def ways (greedy : Bool) (round rest : Nat) : List Nat :=
  if greedy then [round, rest] else [rest, round]

/-- A part `n` times in a row. -/
def times : Nat → Part → Part
  | 0, _, next, states => (next, states)
  | n + 1, part, next, states =>
    let (entry, states) := part next states
    times n part entry states

/-- A part at most `n` times in a row; before each time one can leave for `exit`. -/
def upTo (greedy : Bool) (part : Part) (exit : Nat) : Nat → Part
  | 0, next, states => (next, states)
  | n + 1, next, states =>
    let (round, states) := part next states
    let (entry, states) := emit (.fork (ways greedy round exit)) states
    upTo greedy part exit n entry states

/-- A part once or more often: the place where it begins, and that of the fork behind it. -/
def loop (greedy : Bool) (part : Part) (next : Nat) (states : Array MachineState) :
    Nat × Nat × Array MachineState :=
  let fork := states.size
  let (round, states) := part fork (states.push (.fork []))
  (round, fork, states.setIfInBounds fork (.fork (ways greedy round next)))

end Machine

namespace Regex

open Machine

mutual

/-- The part of a machine that matches an expression. -/
def assemble : Regex → Part
  | empty => fun next states => (next, states)
  | char c => fun next => emit (.char c next)
  | set s => fun next => emit (.set s next)
  | look l => fun next => emit (.look l next)
  | group _ _ body => assemble body
  | repeated min max greedy body => fun next states =>
    match max with
    | some max =>
      let (entry, states) := upTo greedy (assemble body) next (max - min) next states
      times min (assemble body) entry states
    | none =>
      let (round, fork, states) := loop greedy (assemble body) next states
      if min = 0 then
        if body.nullable then emit (.fork (ways greedy round next)) states else (fork, states)
      else times (min - 1) (assemble body) round states
  | sequence parts => assembleSequence parts
  | choice branches => fun next states =>
    let (entries, states) := assembleBranches branches next states
    emit (.fork entries) states

def assembleSequence : List Regex → Part
  | [], next, states => (next, states)
  | part :: rest, next, states =>
    let (next, states) := assembleSequence rest next states
    assemble part next states

/-- The parts for expressions beside each other: the places where they begin. -/
def assembleBranches : List Regex → Nat → Array MachineState → List Nat × Array MachineState
  | [], _, states => ([], states)
  | branch :: rest, next, states =>
    let (entry, states) := assemble branch next states
    let (entries, states) := assembleBranches rest next states
    (entry :: entries, states)

end

def machine (r : Regex) : Machine :=
  let (start, states) := r.assemble 0 #[.accept]
  ⟨states, start⟩

end Regex
end AmdBundle
