import TaggedValues.Pattern.Brackets
import TaggedValues.Text.Alphanumeric

/-!
# Reading patterns

A pattern is read from left to right. `State` holds the branch being read, the complete branches
beside it, and the groups around them with what preceded them. `isPattern` says whether a text is a
pattern that can be used.
-/

namespace TaggedValues.Pattern

open Text

/-- What has been read of a group, or outside of groups. -/
structure Level where
  /-- The parts of the branch being read, the last one first. -/
  parts : List Part := []
  /-- The complete branches. -/
  branches : List Part := []
deriving DecidableEq, Repr

/-- The whole of a level. -/
def Level.whole (level : Level) : Part :=
  Part.join (Part.join level.parts :: level.branches)

/-- What has been read of a pattern. -/
structure State where
  /-- The mode at present. -/
  mode : Mode := {}
  /-- The level at present. -/
  level : Level := {}
  /-- The modes and levels around the open groups, the innermost first. -/
  groups : List (Mode × Level) := []
  /-- The names given to groups. -/
  names : List (List Char) := []
deriving DecidableEq, Repr

namespace State

/-- Adds a part. -/
def add (state : State) (part : Part) : State :=
  { state with level := { state.level with parts := part :: state.level.parts } }

/-- Opens a group with a mode of its own. -/
def openGroup (state : State) (mode : Mode) : State :=
  { state with mode, level := {}, groups := (state.mode, state.level) :: state.groups }

/-- Closes the innermost group. -/
def closeGroup (state : State) : Option State :=
  match state.groups with
  | [] => none
  | (mode, level) :: groups =>
    some (add { state with mode, level, groups } state.level.whole.group)

/-- Completes the branch. -/
def closeBranch (state : State) : State :=
  { state with level := { branches := Part.join state.level.parts :: state.level.branches } }

/-- Repeats the last part at most so many times. -/
def repeatLast (state : State) (most : Option Nat) : Option State :=
  match state.level.parts with
  | [] => none
  | part :: parts =>
    if part.switch then none
    else some { state with level := { state.level with parts := part.repeat most :: parts } }

end State

/-! ## Groups -/

/-- Whether a group can have the name. -/
def isGroupName : List Char → Bool
  | [] => false
  | first :: rest => (first = '_' || isAlphabetic first) &&
      rest.all fun c => c = '_' || c = '.' || c = '[' || c = ']' || isAlphanumeric c

/-- Whether the letters are switches, each at most once. -/
def areSwitches : List Char → Bool
  | [] => true
  | c :: rest => c ∈ ['i', 'm', 's', 'U', 'u', 'R', 'x'] && c ∉ rest && areSwitches rest

/-- The mode that switches make of a mode: those behind a dash are switched off. -/
def Mode.switch? (mode : Mode) (letters : List Char) : Option Mode :=
  let on := letters.takeWhile (· ≠ '-')
  let off := letters.drop (on.length + 1)
  if areSwitches (on ++ off) ∧ (off ≠ [] ∨ '-' ∉ letters) then
    let resolve := fun (c : Char) (before : Bool) => (c ∈ on || before) && c ∉ off
    some {
      caseless := resolve 'i' mode.caseless
      unicode := resolve 'u' mode.unicode
      spaced := resolve 'x' mode.spaced }
  else none

/-- Opens a group with a name in front of the text. -/
def readGroupName (state : State) (text : List Char) : Option (State × List Char) :=
  let name := text.takeWhile (· ≠ '>')
  match text.drop name.length with
  | '>' :: rest =>
    if isGroupName name ∧ name ∉ state.names then
      some ({ state.openGroup state.mode with names := name :: state.names }, rest)
    else none
  | _ => none

/-- Reads switches in front of the text: for what follows, or for a group of their own. -/
def readSwitches (state : State) (text : List Char) : Option (State × List Char) :=
  let letters := text.takeWhile fun c => c ≠ ':' ∧ c ≠ ')'
  match text.drop letters.length, state.mode.switch? letters with
  | ')' :: rest, some mode =>
    if letters.isEmpty then none else some ({ state.add { switch := true } with mode }, rest)
  | ':' :: rest, some mode => some (state.openGroup mode, rest)
  | _, _ => none

/-- Reads on behind an opening parenthesis. Nothing looks ahead or behind. -/
def readGroup (state : State) (text : List Char) : Option (State × List Char) :=
  match skip state.mode text with
  | '?' :: 'P' :: '<' :: rest => readGroupName state rest
  | '?' :: '<' :: rest => readGroupName state rest
  | '?' :: rest => readSwitches state rest
  | text => some (state.openGroup state.mode, text)

/-! ## Repetition -/

/-- The text without a question mark in front, which makes a repetition modest. -/
def dropQuestionMark : List Char → List Char
  | '?' :: rest => rest
  | text => text

/-- Reads a count, with blanks around it. -/
def readCount (mode : Mode) (text : List Char) : Option (Nat × List Char) := do
  let (digits, rest) := collect mode Char.isDigit (text.dropWhile isBlank)
  let count ← (Numeral.readUnsigned 10 0xFFFFFFFF digits).toOption
  return (count, rest.dropWhile isBlank)

/-- Reads counts behind the opening brace: one, a least one, or a least and a greatest one. Gives
the greatest one. -/
def readCounts (mode : Mode) (text : List Char) : Option (Option Nat × List Char) := do
  let (least, rest) ← readCount mode (skip mode text)
  match rest with
  | '}' :: rest => return (some least, rest)
  | ',' :: rest =>
    match skip mode rest with
    | '}' :: rest => return (none, rest)
    | rest => do
      let (most, rest) ← readCount mode rest
      match rest with
      | '}' :: rest => if least ≤ most then return (some most, rest) else none
      | _ => none
  | _ => none

/-! ## The whole -/

/-- Reads an atom outside of classes, from its first character on. -/
def readAtom (mode : Mode) (c : Char) (rest : List Char) : Option (Atom × List Char) :=
  match c with
  | '\\' => readEscape mode rest
  | '.' => some (.dot, rest)
  | '^' | '$' => some (.position false, rest)
  | c => some (.literal c false, rest)

/-- Reads the next part, from its first character on. -/
def readPart (state : State) (c : Char) (rest : List Char) : Option (State × List Char) :=
  match c with
  | '(' => readGroup state rest
  | ')' => do return (← state.closeGroup, rest)
  | '|' => some (state.closeBranch, rest)
  | '[' => do
    let (level, text) ← openClass state.mode rest
    let (depth, rest) ← readClass state.mode (text.length + 1) [level] text
    return (state.add { depth }, rest)
  | '?' => do return (← state.repeatLast (some 1), dropQuestionMark rest)
  | '*' | '+' => do return (← state.repeatLast none, dropQuestionMark rest)
  | '{' => do
    let (most, rest) ← readCounts state.mode rest
    return (← state.repeatLast most, dropQuestionMark (skip state.mode rest))
  | c => do
    let (atom, rest) ← readAtom state.mode c rest
    let part ← atom.part? state.mode
    return (state.add part, rest)

/-- Reads to the end of a pattern. The steps that may be taken are counted; each takes a character
at least. -/
def readParts : Nat → State → List Char → Option State
  | 0, _, _ => none
  | steps + 1, state, text =>
    match skip state.mode text with
    | [] => some state
    | c :: rest => do
      let (state, rest) ← readPart state c rest
      readParts steps state rest

/-- The largest number of levels of nesting that a pattern may have. -/
def maxDepth : Nat := 250

/-- Whether the text is a pattern that can be used: it can be read to its end with all groups
closed, it is not nested too deeply, and it does not ask for word boundaries among characters. -/
def isPattern (text : List Char) : Bool :=
  match readParts (text.length + 1) {} text with
  | none => false
  | some state =>
    let whole := state.level.whole
    state.groups.isEmpty && whole.depth ≤ maxDepth && !whole.boundary

example : ["", "a.", "[[:nope:]]", "(?<n>a)+|b*"].all fun text => isPattern text.toList := by
  decide +kernel

example : ["(", "+", "a|*", "(?<n>a)(?<n>b)", "[b-a]"].all fun text => !isPattern text.toList := by
  decide +kernel

end TaggedValues.Pattern
