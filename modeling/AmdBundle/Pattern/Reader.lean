import AmdBundle.Pattern.Basic
import AmdBundle.Text.Blank
import AmdBundle.Text.Bytes
import AmdBundle.Text.Letter

/-!
# AmdBundle.Pattern.Reader — the written form of alias patterns

`Regex.ofText?` reads an expression: alternatives, groups with and without a name, flags, classes in
brackets, repetitions with an optional `?` for the lazy form, escapes and anchors.  Back references,
look-around, classes by Unicode property and set operations inside brackets are refused, and so is
whatever exceeds the limits.

The flags are `i` (either case), `m` (anchors at lines), `s` (the point takes line feeds), `R`
(carriage returns end lines), `U` (lazy and greedy swapped), `x` (blanks and comments are left out)
and `u` (no effect here).  They last to the end of the group they are set in.

Reading is a state machine over the characters to come; its fuel is the length of the text, since
each round of a reader takes a character off.
-/

namespace AmdBundle
namespace Pattern

open Text

structure Flags where
  eitherCase : Bool := false
  lines : Bool := false
  pointTakesAll : Bool := false
  returns : Bool := false
  swapGreed : Bool := false
  spaced : Bool := false
  unicode : Bool := true

/-- What reading carries along. -/
structure ReadState where
  /-- The characters to come. -/
  rest : List Char
  flags : Flags := {}
  /-- The number of the last group begun. -/
  lastGroup : Nat := 0
  /-- The group names used so far. -/
  names : List String := []

/-- A reader; it fails on a pattern that is not well formed. -/
abbrev Reader := StateT ReadState Option

namespace Reader

def peek : Reader (Option Char) := do
  return (← get).rest.head?

/-- Whether the characters to come begin with the given ones; if so they are taken. -/
def takeAll (cs : String) : Reader Bool := do
  let state ← get
  match cs.toList.isPrefixOf? state.rest with
  | some rest => set { state with rest }; return true
  | none => return false

def bump : Reader Unit :=
  modify fun state => { state with rest := state.rest.drop 1 }

/-- The characters behind blanks and comments, a comment running from `#` to the end of its line. -/
def dropSpace : Bool → List Char → List Char
  | _, [] => []
  | true, c :: cs => dropSpace (c != '\n') cs
  | false, c :: cs =>
    if isBlank c then dropSpace false cs else if c = '#' then dropSpace true cs else c :: cs

/-- Takes blanks and comments where they are to be left out. -/
def skipSpace : Reader Unit :=
  modify fun state =>
    if state.flags.spaced then { state with rest := dropSpace false state.rest } else state

/-- Takes the next character and the space behind it. -/
def bumpSpace : Reader Unit := do
  bump
  skipSpace

/-- The character behind the next one, blanks aside where they are left out.  Of a comment only the
`#` is left out: its text counts. -/
def peekBehind : Reader (Option Char) := do
  let state ← get
  let behind := state.rest.drop 1
  if state.flags.spaced then
    match behind.filter fun c => !isBlank c with
    | '#' :: comment => return comment.head?
    | others => return others.head?
  else return behind.head?

def need : Reader Char := do
  match ← peek with
  | some c => return c
  | none => failure

def expect (c : Char) : Reader Unit := do
  if (← need) = c then bump else failure

/-! ## Characters and escapes -/

/-- The expression for a character, in both cases if the flags say so. -/
def charRegex (c : Char) : Reader Regex := do
  if (← get).flags.eitherCase && c.isAlpha then
    return .set (CharSet.foldCase ⟨[(c.toNat, c.toNat)]⟩)
  else return .char c

def charOf? (n : Nat) : Option Char :=
  if h : n.isValidChar then some (Char.ofNatAux n h) else none

def hexNumber? (digits : List Char) : Option Nat :=
  digits.foldlM (fun n d => (hexValue? d).map (n * 16 + ·)) 0

def readHexDigits : Nat → Reader (List Char)
  | 0 => return []
  | n + 1 => do
    let c ← need
    if (hexValue? c).isNone then failure
    bumpSpace
    return c :: (← readHexDigits n)

/-- The hexadecimal digits up to a closing brace, which is taken. -/
def readHexBraced : Nat → Reader (List Char)
  | 0 => failure
  | fuel + 1 => do
    let c ← need
    bumpSpace
    if c = '\x7d' then return []
    if (hexValue? c).isNone then failure
    return c :: (← readHexBraced fuel)

/-- The character written by its code point, from behind the letter that says how many digits it
has. -/
def readHex (fuel count : Nat) : Reader Char := do
  let digits ←
    if (← need) = '\x7b' then do
      bumpSpace
      readHexBraced fuel
    else readHexDigits count
  if digits.isEmpty then failure
  match (hexNumber? digits).bind charOf? with
  | some c => return c
  | none => failure

/-- Whether a character, behind a backslash, stands for itself: every ASCII mark but the two that
may get another meaning. -/
def isEscapable (c : Char) : Bool :=
  c.toNat < 0x80 && !c.isAlphanum && c != '<' && c != '>'

/-- The conditions with a name between braces behind `\b`. -/
def boundaryNamed? : String → Option Look
  | "start" => some .wordStart
  | "end" => some .wordEnd
  | "start-half" => some .wordStartHalf
  | "end-half" => some .wordEndHalf
  | _ => none

def isBoundaryChar (c : Char) : Bool := c.isAlpha || c == '-'

def readBoundaryName : Nat → Reader (List Char)
  | 0 => failure
  | fuel + 1 => do
    match ← peek with
    | some c =>
      if isBoundaryChar c then do
        bumpSpace
        return c :: (← readBoundaryName fuel)
      else return []
    | none => return []

/-- A word boundary, from behind `\b`.  Braces that hold no letter are a repetition and are left
alone. -/
def readBoundary (fuel : Nat) : Reader Regex := do
  if (← peek) != some '\x7b' then return .look .wordBoundary
  let before ← get
  bumpSpace
  let first ← need
  if isBoundaryChar first then
    let name ← readBoundaryName fuel
    expect '\x7d'
    match boundaryNamed? (String.ofList name) with
    | some look => return .look look
    | none => failure
  else
    set before
    return .look .wordBoundary

/-- An escape, from behind the backslash; `literal` gives the expression for a character. -/
def readEscape (literal : Char → Reader Regex) (fuel : Nat) : Reader Regex := do
  let c ← need
  bump
  match c with
  | 'x' => do skipSpace; literal (← readHex fuel 2)
  | 'u' => do skipSpace; literal (← readHex fuel 4)
  | 'U' => do skipSpace; literal (← readHex fuel 8)
  | 'd' => return .set .digits
  | 's' => return .set .blanks
  | 'w' => return .set .wordChars
  | 'D' => return .set CharSet.digits.complement
  | 'S' => return .set CharSet.blanks.complement
  | 'W' => return .set CharSet.wordChars.complement
  | 'a' => return .char '\x07'
  | 'f' => return .char '\x0c'
  | 't' => return .char '\t'
  | 'n' => return .char '\n'
  | 'r' => return .char '\r'
  | 'v' => return .char '\x0b'
  | 'A' => return .look .textStart
  | 'z' => return .look .textEnd
  | 'B' => return .look .noWordBoundary
  | '<' => return .look .wordStart
  | '>' => return .look .wordEnd
  | 'b' => readBoundary fuel
  | c => if isEscapable c then literal c else failure

/-! ## Classes in brackets -/

/-- One item of a class: a character, or a set that an escape stands for. -/
def readClassItem (escape : Reader Regex) : Reader (Char ⊕ CharSet) := do
  let c ← need
  bump
  if c = '\\' then
    match ← escape with
    | .char c => return .inl c
    | .set s => return .inr s
    | _ => failure
  else return .inl c

def readClassRange (escape : Reader Regex) : Reader (List (Nat × Nat)) := do
  let first ← readClassItem escape
  skipSpace
  let next ← need
  let behind ← peekBehind
  if next != '-' || behind == some ']' || behind == some '-' then
    match first with
    | .inl c => return [(c.toNat, c.toNat)]
    | .inr s => return s.ranges
  else
    bumpSpace
    discard need
    match first, ← readClassItem escape with
    | .inl a, .inl b => if a.toNat ≤ b.toNat then return [(a.toNat, b.toNat)] else failure
    | _, _ => failure

/-- A class by name, from its `[:` on; nothing is taken if it is none. -/
def readNamedClass : Reader (Option CharSet) := do
  let before ← get
  if ← takeAll "[:" then
    let negated ← takeAll "^"
    let rest := (← get).rest
    let name := rest.takeWhile (· != ':')
    modify fun state => { state with rest := rest.drop name.length }
    if ← takeAll ":]" then
      match CharSet.named? (String.ofList name) with
      | some s => return some (if negated then s.complement else s)
      | none => set before; return none
    else set before; return none
  else return none

/-- The hyphens at the start of a class, which stand for themselves. -/
def readHyphens : Nat → Reader (List (Nat × Nat))
  | 0 => failure
  | fuel + 1 => do
    if (← need) = '-' then
      bumpSpace
      return CharSet.range '-' '-' :: (← readHyphens fuel)
    else return []

/-- The ranges of a class up to its closing bracket, which is taken. -/
def readClassRanges : Nat → Reader (List (Nat × Nat))
  | 0 => failure
  | fuel + 1 => do
    skipSpace
    let c ← need
    let next := (← get).rest[1]?
    if c = '[' then
      match ← readNamedClass with
      | some s => return s.ranges ++ (← readClassRanges fuel)
      | none => failure
    else if c = ']' then
      bump
      return []
    else if (c = '&' ∨ c = '-' ∨ c = '~') ∧ next = some c then failure
    else
      let ranges ← readClassRange (readEscape charRegex fuel)
      return ranges ++ (← readClassRanges fuel)

/-- A class, from behind its opening bracket.  A closing bracket that comes first is one of the
characters. -/
def readClass (fuel : Nat) : Reader Regex := do
  skipSpace
  let negated := (← need) = '^'
  if negated then bumpSpace
  let hyphens ← readHyphens fuel
  let first ←
    if hyphens.isEmpty && (← need) = ']' then do
      bumpSpace
      pure [CharSet.range ']' ']']
    else pure []
  let others ← readClassRanges fuel
  let written := CharSet.ofRanges (hyphens ++ first ++ others)
  let folded := if (← get).flags.eitherCase then written.foldCase else written
  return .set (if negated then folded.complement else folded)

/-! ## Repetitions -/

/-- Whether the repetition just read prefers more; a `?` behind it says no. -/
def readGreed : Reader Bool := do
  let lazy ← takeAll "?"
  return lazy == (← get).flags.swapGreed

def readDigits : Nat → Reader (List Char)
  | 0 => failure
  | fuel + 1 => do
    match ← peek with
    | some c =>
      if c.isDigit then do
        bumpSpace
        return c :: (← readDigits fuel)
      else return []
    | none => return []

def skipBlanks : Reader Unit :=
  modify fun state => { state with rest := state.rest.dropWhile isBlank }

/-- A number below 2 to the power 32. -/
def readNumber (fuel : Nat) : Reader Nat := do
  skipBlanks
  let digits ← readDigits fuel
  skipBlanks
  let n := digits.foldl (fun n d => n * 10 + (d.toNat - '0'.toNat)) 0
  if digits.isEmpty ∨ UInt32.size ≤ n then failure else return n

/-- The bounds between braces, from behind the opening one. -/
def readBounds (fuel : Nat) : Reader (Nat × Option Nat) := do
  skipSpace
  discard need
  let min ← readNumber fuel
  let max ←
    if (← need) = ',' then do
      bumpSpace
      if (← need) = '\x7d' then pure none else some <$> readNumber fuel
    else pure (some min)
  expect '\x7d'
  return (min, max)

/-- The sequence with its last part repeated; there must be one. -/
def repeatLast (parts : List Regex) (min : Nat) (max : Option Nat) : Reader (List Regex) := do
  match parts with
  | [] => failure
  | last :: before => return Regex.ofRepeated min max (← readGreed) last :: before

/-! ## Groups -/

/-- Whether a character may stand in the name of a group. -/
def isNameChar (first : Bool) (c : Char) : Bool :=
  c == '_' || isLetter c || (!first && (isNumeral c || c == '.' || c == '[' || c == ']'))

/-- The name of a group, from behind its `<`; it must not be in use. -/
def readName : Reader String := do
  let state ← get
  let name := state.rest.takeWhile (· != '>')
  match state.rest.drop name.length, name with
  | _ :: rest, first :: others =>
    let written := String.ofList name
    if isNameChar true first && others.all (isNameChar false) && !state.names.contains written then
      set { state with rest, names := written :: state.names }
      return written
    else failure
  | _, _ => failure

def nextGroup : Reader Nat := do
  let state ← get
  set { state with lastGroup := state.lastGroup + 1 }
  return state.lastGroup + 1

def setFlag? (flags : Flags) (value : Bool) : Char → Option Flags
  | 'i' => some { flags with eitherCase := value }
  | 'm' => some { flags with lines := value }
  | 's' => some { flags with pointTakesAll := value }
  | 'R' => some { flags with returns := value }
  | 'U' => some { flags with swapGreed := value }
  | 'x' => some { flags with spaced := value }
  | 'u' => some { flags with unicode := value }
  | _ => none

/-- The flags up to a colon or a closing parenthesis; `seen` holds the letters before, and `negated`
is whether there was a hyphen.  No letter comes twice, and a hyphen once and not last. -/
def readFlags :
    Nat → (flags : Flags) → (seen : List Char) → (negated hyphenLast : Bool) → Reader Flags
  | 0, _, _, _, _ => failure
  | fuel + 1, flags, seen, negated, hyphenLast => do
    let c ← need
    if c = ':' ∨ c = ')' then
      if hyphenLast then failure else return flags
    else if c = '-' then
      if negated then failure
      bump
      readFlags fuel flags seen true true
    else
      match setFlag? flags (!negated) c with
      | some flags =>
        if seen.contains c then failure
        bump
        readFlags fuel flags (c :: seen) negated false
      | none => failure

/-- What the characters behind an opening parenthesis make of the group. -/
inductive GroupKind where
  | lookAround
  | named
  | flagged
  | plain

/-- The kind of a group, from behind its opening parenthesis; the marks that tell it are taken. -/
def groupKind : Reader GroupKind := do
  let rest := (← get).rest
  if ["?=", "?!", "?<=", "?<!"].any (·.toList.isPrefixOf rest) then return .lookAround
  if ← takeAll "?P<" then return .named
  if ← takeAll "?<" then return .named
  if ← takeAll "?" then return .flagged
  return .plain

/-- What stands before the body of a group. -/
inductive GroupHead where
  /-- Flags, and no body. -/
  | flags
  | plain
  | numbered (number : Nat) (name : Option String)

/-- The head of a group, from behind its opening parenthesis; its flags are in force then. -/
def readGroupHead (fuel : Nat) : Reader GroupHead := do
  skipSpace
  match ← groupKind with
  | .lookAround => failure
  | .named => do
    let number ← nextGroup
    return .numbered number (some (← readName))
  | .plain => return .numbered (← nextGroup) none
  | .flagged => do
    let empty := (← peek) = some ')'
    let flags ← readFlags fuel (← get).flags [] false false
    modify fun state => { state with flags }
    if (← need) = ')' then
      if empty then failure else return .flags
    bump
    return .plain

/-! ## Expressions -/

def point : Reader Regex := do
  let flags := (← get).flags
  let refused :=
    if flags.pointTakesAll then [] else if flags.returns then [(10, 10), (13, 13)] else [(10, 10)]
  return .set (CharSet.complement ⟨refused⟩)

def startAnchor : Reader Regex := do
  let flags := (← get).flags
  return .look <|
    if !flags.lines then .textStart else if flags.returns then .returnStart else .lineStart

def endAnchor : Reader Regex := do
  let flags := (← get).flags
  return .look (if !flags.lines then .textEnd else if flags.returns then .returnEnd else .lineEnd)

/-- The expression of the branches before and the parts of the last one, both last one first. -/
def finish (branches parts : List Regex) : Regex :=
  Regex.ofChoice (Regex.ofSequence parts.reverse :: branches).reverse

mutual

/-- The expression up to the end of the text or of the group at `depth`.  `branches` are the
alternatives before and `parts` the parts of the present one, both last one first. -/
def readBranches (fuel depth : Nat) (branches parts : List Regex) : Reader Regex :=
  match fuel with
  | 0 => failure
  | fuel + 1 => do
    skipSpace
    match ← peek with
    | none => return finish branches parts
    | some ')' => if depth = 0 then failure else return finish branches parts
    | some '|' => do
      bump
      readBranches fuel depth (Regex.ofSequence parts.reverse :: branches) []
    | some '(' => do
      bump
      let flags := (← get).flags
      match ← readGroup fuel depth with
      | some group => do
        modify fun state => { state with flags }
        expect ')'
        readBranches fuel depth branches (group :: parts)
      | none => do
        expect ')'
        readBranches fuel depth branches parts
    | some '[' => do
      bump
      let part ← readClass fuel
      readBranches fuel depth branches (part :: parts)
    | some '?' => do
      bump
      readBranches fuel depth branches (← repeatLast parts 0 (some 1))
    | some '*' => do
      bump
      readBranches fuel depth branches (← repeatLast parts 0 none)
    | some '+' => do
      bump
      readBranches fuel depth branches (← repeatLast parts 1 none)
    | some '\x7b' => do
      bump
      let (min, max) ← readBounds fuel
      skipSpace
      if max.any (· < min) then failure
      readBranches fuel depth branches (← repeatLast parts min max)
    | some '\\' => do
      bump
      let part ← readEscape charRegex fuel
      readBranches fuel depth branches (part :: parts)
    | some '.' => do
      bump
      let part ← point
      readBranches fuel depth branches (part :: parts)
    | some '^' => do
      bump
      let part ← startAnchor
      readBranches fuel depth branches (part :: parts)
    | some '$' => do
      bump
      let part ← endAnchor
      readBranches fuel depth branches (part :: parts)
    | some c => do
      bump
      let part ← charRegex c
      readBranches fuel depth branches (part :: parts)

/-- A group, from behind its opening parenthesis up to the closing one; `none` if it only sets
flags. -/
def readGroup (fuel depth : Nat) : Reader (Option Regex) :=
  match fuel with
  | 0 => failure
  | fuel + 1 => do
    let body : Reader Regex :=
      if depth < Regex.maxNesting then readBranches fuel (depth + 1) [] [] else failure
    match ← readGroupHead fuel with
    | .flags => return none
    | .plain => return some (← body)
    | .numbered number name => return some (.group number name (← body))

end

end Reader
end Pattern

def Regex.ofText? (text : String) : Option Regex := do
  let cs := text.toList
  let (r, state) ← Pattern.Reader.readBranches (2 * cs.length + 2) 0 [] [] |>.run { rest := cs }
  if state.rest.isEmpty && r.isSmall then some r else none

end AmdBundle
