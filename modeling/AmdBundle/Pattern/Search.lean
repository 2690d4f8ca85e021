import AmdBundle.Pattern.Machine

/-!
# AmdBundle.Pattern.Search — where a pattern matches

The search is leftmost-first: of all matches one that starts earliest, and of those the one that the
pattern prefers (an earlier branch, more rounds of a greedy repetition, fewer of a lazy one).

At every place the states that a machine can be in are listed in order of preference; a state that
was met before at the place is not entered again, and one that accepts cuts off those behind it.
All places where a match may begin are tried in one pass: a later one is less preferred than all
that began before.
-/

namespace AmdBundle

/-- A match that has begun: the place where it did, in bytes from the start of the text, and the
state it goes on at. -/
structure Attempt where
  start : Nat
  state : Nat
  deriving DecidableEq, Repr

namespace Machine

/-- Takes attempts, in order of preference, on to the states that wait for a character or accept;
gives those with the places where the attempts began.  `met` tells of every state whether it was
met at this place, `fresh` is how many were not, and `settled` is what was found before, last one
first. -/
def settle (machine : Machine) (before behind : Option Char) (fresh : Nat)
    (attempts : List Attempt) (met : Array Bool) (settled : List (Nat × MachineState)) :
    List (Nat × MachineState) :=
  match attempts with
  | [] => settled.reverse
  | ⟨start, place⟩ :: rest =>
    if met.getD place true then settle machine before behind fresh rest met settled
    else
      match fresh with
      | 0 => settled.reverse
      | fresh + 1 =>
        let met := met.setIfInBounds place true
        match machine.states[place]? with
        | none => settle machine before behind fresh rest met settled
        | some (.fork nexts) =>
          settle machine before behind fresh (nexts.map (⟨start, ·⟩) ++ rest) met settled
        | some (.look l next) =>
          let attempts := if l.holds before behind then ⟨start, next⟩ :: rest else rest
          settle machine before behind fresh attempts met settled
        | some state => settle machine before behind fresh rest met ((start, state) :: settled)
termination_by (fresh, attempts.length)

/-- The attempts that go on with a character, up to the first that accepts; and where that one
began. -/
def advance (c : Option Char) (settled : List (Nat × MachineState)) :
    List Attempt × Option Nat :=
  let waiting := settled.takeWhile fun found => !found.2.accepts
  let next := waiting.filterMap fun found =>
    (c.bind (MachineState.take? · found.2)).map (⟨found.1, ·⟩)
  (next, (settled.find? fun found => found.2.accepts).map Prod.fst)

/-- What comes of attempts at a place.  As long as there is no match, one begins at every place. -/
def step (machine : Machine) (before behind : Option Char) (place : Nat) (best : Option Nat)
    (attempts : List Attempt) : List Attempt × Option Nat :=
  let attempts := if best.isNone then attempts ++ [⟨place, machine.start⟩] else attempts
  let size := machine.states.size
  advance behind (settle machine before behind size attempts (Array.replicate size false) [])

/-- The length in bytes of the preferred match in the text to come; `place` is how many bytes lie
behind, and `best` is the match found so far. -/
def searchFrom (machine : Machine) (before : Option Char) (attempts : List Attempt) (place : Nat)
    (best : Option Nat) : List Char → Option Nat
  | [] =>
    let (_, accepted) := machine.step before none place best attempts
    (accepted.map (place - ·)).or best
  | c :: cs =>
    let (next, accepted) := machine.step before (some c) place best attempts
    let best := (accepted.map (place - ·)).or best
    if best.isSome && next.isEmpty then best
    else searchFrom machine (some c) next (place + c.utf8Size) best cs

/-- The length in bytes of the leftmost-first match in a text, if there is a match. -/
def matchLength? (machine : Machine) (text : String) : Option Nat :=
  searchFrom machine none [] 0 none text.toList

end Machine
end AmdBundle
