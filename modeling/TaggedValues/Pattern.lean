import TaggedValues.Text.Line

/-!
# Patterns

A pattern describes texts by characters, classes of characters, positions, repetition, groups and
alternatives. What is wanted of a pattern here is only whether it can be used, so no tree is built:
of each part of a pattern a `Part` keeps how deeply it is nested and whether it asks for word
boundaries.

Patterns are matched by an automaton that reads bytes and has no tables of scripts. While characters
are matched (`Mode.unicode`), it therefore knows no letters of either case, no shorthands such as
`\d`, and no word boundaries; while bytes are matched, a class must not reach beyond ASCII, because
it could then match a piece of a character.
-/

namespace TaggedValues.Pattern

open Text

/-- What the switches of a pattern decide. -/
structure Mode where
  /-- Whether a letter stands for both cases. -/
  caseless : Bool := false
  /-- Whether characters are matched, and not bytes. -/
  unicode : Bool := true
  /-- Whether blanks and comments between the parts are passed over. -/
  spaced : Bool := false
deriving DecidableEq, Repr

/-! ## Parts -/

/-- The number of levels of a whole, from those of its parts. A single part needs no level of its
own. -/
def nest : List Nat → Nat
  | [] => 0
  | [depth] => depth
  | depth :: depths => 1 + depths.foldl Nat.max depth

/-- What is known of a part of a pattern. -/
structure Part where
  /-- The number of levels of nesting. -/
  depth : Nat := 0
  /-- Whether it asks for word boundaries among characters. -/
  boundary : Bool := false
  /-- Whether it is a switch, which cannot be repeated. -/
  switch : Bool := false
deriving DecidableEq, Repr

/-- The whole that parts form, one after the other or as alternatives. -/
def Part.join (parts : List Part) : Part where
  depth := nest (parts.map depth)
  boundary := parts.any boundary

/-- The part in parentheses. -/
def Part.group (part : Part) : Part where
  depth := part.depth + 1
  boundary := part.boundary

/-- The part repeated at most so many times, without bound for `none`. Of a part repeated no time
nothing remains to be matched. -/
def Part.repeat (part : Part) (most : Option Nat) : Part where
  depth := part.depth + 1
  boundary := part.boundary && most != some 0

/-- A part that cannot be taken apart. -/
inductive Atom where
  /-- A character, or a byte if it is given by two hexadecimal digits. -/
  | literal (c : Char) (byte : Bool)
  /-- Any character but a line feed. -/
  | dot
  /-- A position, which is a word boundary or not. -/
  | position (boundary : Bool)
  /-- The digits, the blanks or the characters of words, or what is none of them. -/
  | shorthand (negated : Bool)
deriving DecidableEq, Repr

/-- What is known of an atom, unless it cannot be used. -/
def Atom.part? (mode : Mode) : Atom → Option Part
  | literal c byte =>
    if mode.unicode then
      if mode.caseless then none else some {}
    else if byte ∧ 0x80 ≤ c.toNat then none
    else some {}
  | dot => if mode.unicode then some {} else none
  | position boundary => some { boundary := boundary && mode.unicode }
  | shorthand negated => if mode.unicode ∨ negated then none else some {}

/-- Whether the atom can be used as a member of a class. -/
def Atom.isMember (mode : Mode) : Atom → Bool
  | literal c _ => if mode.unicode then !mode.caseless else c.toNat < 0x80
  | shorthand negated => !mode.unicode && !negated
  | dot | position _ => false

/-! ## Blanks -/

/-- The text without the blanks and comments in front, where `comment` says that it begins within a
comment. -/
def skipBlanks (comment : Bool) : List Char → List Char
  | [] => []
  | c :: rest =>
    if comment then skipBlanks (c ≠ '\n') rest
    else if isBlank c then skipBlanks false rest
    else if c = '#' then skipBlanks true rest
    else c :: rest

/-- The text without what is passed over in front. -/
def skip (mode : Mode) (text : List Char) : List Char :=
  if mode.spaced then skipBlanks false text else text

/-- The longest run of characters of a kind, where blanks and comments are passed over within it and
around it, and what follows it. The text begins within a comment if `comment` says so. -/
def collectFrom (mode : Mode) (kind : Char → Bool) (comment : Bool) :
    List Char → List Char × List Char
  | [] => ([], [])
  | c :: rest =>
    if comment then collectFrom mode kind (c ≠ '\n') rest
    else if mode.spaced && isBlank c then collectFrom mode kind false rest
    else if mode.spaced && c = '#' then collectFrom mode kind true rest
    else if kind c then
      let (run, behind) := collectFrom mode kind false rest
      (c :: run, behind)
    else ([], c :: rest)

/-- The longest run of characters of a kind in front, and what follows it. -/
def collect (mode : Mode) (kind : Char → Bool) (text : List Char) : List Char × List Char :=
  collectFrom mode kind false text

end TaggedValues.Pattern
