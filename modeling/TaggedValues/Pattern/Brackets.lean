import TaggedValues.Pattern.Escape

/-!
# Classes in brackets

A class in brackets lists characters, ranges, named classes and further classes in brackets, and may
combine what stands in front of `&&`, `--` or `~~` with what follows.
-/

namespace TaggedValues.Pattern

open Text

/-- What is known of a class while it is read. -/
structure ClassLevel where
  /-- The levels of what stands in front of the last operator, if there is one. -/
  left : Option Nat := none
  /-- The levels of the members behind it. -/
  members : List Nat := []
deriving DecidableEq, Repr

namespace ClassLevel

/-- The number of levels of the class. -/
def depth (level : ClassLevel) : Nat :=
  match level.left with
  | none => nest level.members
  | some left => 1 + Nat.max left (nest level.members)

/-- Adds a member of so many levels. -/
def add (level : ClassLevel) (depth : Nat) : ClassLevel :=
  { level with members := depth :: level.members }

/-- Goes on behind an operator. -/
def operate (level : ClassLevel) : ClassLevel := { left := some level.depth }

end ClassLevel

/-- The names of the named classes. -/
def classNames : List String :=
  ["alnum", "alpha", "ascii", "blank", "cntrl", "digit", "graph", "lower", "print", "punct",
    "space", "upper", "word", "xdigit"]

/-- Reads a named class behind its opening bracket. Gives whether it is negated. -/
def namedClass? : List Char → Option (Bool × List Char)
  | ':' :: text =>
    let negated := text.head? == some '^'
    let text := if negated then text.tail else text
    let name := text.takeWhile (· ≠ ':')
    match text.drop name.length with
    | ':' :: ']' :: rest =>
      if String.ofList name ∈ classNames then some (negated, rest) else none
    | _ => none
  | _ => none

/-- Whether a named class can be used. -/
def isNamedMember (mode : Mode) (negated : Bool) : Bool :=
  if mode.unicode then !mode.caseless else !negated

/-- Reads the beginning of a class behind its opening bracket. Dashes there are members, and so is a
closing bracket that comes first. -/
def openClass (mode : Mode) (text : List Char) : Option (ClassLevel × List Char) :=
  let text := skip mode text
  let negated := text.head? == some '^'
  let text := if negated then skip mode text.tail else text
  let (dashes, text) := collect mode (· = '-') text
  let closing := dashes.isEmpty && text.head? == some ']'
  let text := if closing then skip mode text.tail else text
  let members := (if closing then [']'] else dashes)
  if text.isEmpty || (negated && !mode.unicode) then none
  else if members.all fun c => (Atom.literal c false).isMember mode then
    some ({ members := members.map fun _ => 0 }, text)
  else none

/-- Reads an atom of a class. -/
def readMember (mode : Mode) : List Char → Option (Atom × List Char)
  | [] => none
  | '\\' :: rest => readEscape mode rest
  | c :: rest => some (.literal c false, rest)

/-- The character behind a dash that decides whether the dash makes a range. Blanks are passed over,
and the sign of a comment but not the comment. -/
def peek (mode : Mode) (text : List Char) : Option Char :=
  if mode.spaced then
    match text.dropWhile isBlank with
    | '#' :: rest => (rest.dropWhile isBlank).head?
    | text => text.head?
  else text.head?

/-- Reads a member of a class or a range of members. -/
def readRange (mode : Mode) (text : List Char) : Option (List Char) := do
  let (first, rest) ← readMember mode text
  guard (first.isMember mode)
  match skip mode rest with
  | [] => none
  | '-' :: behind =>
    if peek mode behind = some ']' ∨ peek mode behind = some '-' then return '-' :: behind
    else
      let (last, rest) ← readMember mode (skip mode behind)
      guard (last.isMember mode)
      match first, last with
      | .literal first _, .literal last _ => if first ≤ last then return rest else none
      | _, _ => none
  | rest => return rest

/-- Reads on in a class, which is the first of those that are open. Gives the number of levels of
the outermost one, and what follows it. The steps that may be taken are counted. -/
def readClass (mode : Mode) : Nat → List ClassLevel → List Char → Option (Nat × List Char)
  | 0, _, _ | _, [], _ => none
  | steps + 1, level :: outer, text =>
    match skip mode text with
    | [] => none
    | '[' :: rest =>
      match namedClass? rest with
      | some (negated, rest) =>
        if isNamedMember mode negated then readClass mode steps (level.add 0 :: outer) rest
        else none
      | none => do
        let (inner, rest) ← openClass mode rest
        readClass mode steps (inner :: level :: outer) rest
    | ']' :: rest =>
      match outer with
      | [] => some (level.depth + 1, rest)
      | next :: outer => readClass mode steps (next.add (level.depth + 1) :: outer) rest
    | '&' :: '&' :: rest | '-' :: '-' :: rest | '~' :: '~' :: rest =>
      readClass mode steps (level.operate :: outer) rest
    | text => do
      let rest ← readRange mode text
      readClass mode steps (level.add 0 :: outer) rest

end TaggedValues.Pattern
