import TaggedValues.Pattern
import TaggedValues.Text.Numeral

/-!
# Escapes

A backslash gives the character behind it a meaning that it does not have by itself: marks stand for
themselves, some letters for control characters, positions or shorthands, and hexadecimal digits for
the character that they number.
-/

namespace TaggedValues.Pattern

open Text

/-- The character with a number, if there is one. -/
def character? (number : Nat) : Option Char :=
  if number.isValidChar then some (Char.ofNat number) else none

/-- Reads a fixed count of hexadecimal digits, whose digits so far have the given value. -/
def readHexDigits (mode : Mode) : Nat → Nat → List Char → Option (Nat × List Char)
  | 0, value, text => some (value, text)
  | _ + 1, _, [] => none
  | count + 1, value, c :: rest => do
    let digit ← Numeral.digit? 16 c
    readHexDigits mode count (16 * value + digit) (skip mode rest)

/-- Reads a character by its number, which has a fixed count of digits or stands in braces. -/
def readHex (mode : Mode) (digits : Nat) (text : List Char) : Option (Atom × List Char) :=
  match skip mode text with
  | '{' :: text =>
    match collect mode (· ≠ '}') text with
    | (number, '}' :: rest) => do
      let number ← (Numeral.readUnsigned 16 0xFFFFFFFF number).toOption
      let c ← character? number
      return (.literal c false, skip mode rest)
    | _ => none
  | text => do
    let (number, rest) ← readHexDigits mode digits 0 text
    let c ← character? number
    return (.literal c (digits == 2), rest)

/-- The names of halves of word boundaries. -/
def boundaryNames : List String := ["start", "end", "start-half", "end-half"]

/-- Reads what follows the letter of a word boundary: perhaps braces with a name. -/
def readBoundary (mode : Mode) (text : List Char) : Option (Atom × List Char) :=
  match text with
  | '{' :: braced =>
    match collect mode (fun c => c.isAlpha || c = '-') braced with
    | ([], []) => none
    | ([], _) => some (.position true, text)
    | (name, '}' :: rest) =>
      if String.ofList name ∈ boundaryNames then some (.position true, rest) else none
    | _ => none
  | _ => some (.position true, text)

/-- Reads the part of an escape behind the backslash. -/
def readEscape (mode : Mode) : List Char → Option (Atom × List Char)
  | [] => none
  | c :: rest =>
    match c with
    | 'x' => readHex mode 2 rest
    | 'u' => readHex mode 4 rest
    | 'U' => readHex mode 8 rest
    | 'd' | 's' | 'w' => some (.shorthand false, rest)
    | 'D' | 'S' | 'W' => some (.shorthand true, rest)
    | 'a' => some (.literal '\x07' false, rest)
    | 'f' => some (.literal '\x0c' false, rest)
    | 't' => some (.literal '\t' false, rest)
    | 'n' => some (.literal '\n' false, rest)
    | 'r' => some (.literal '\r' false, rest)
    | 'v' => some (.literal '\x0b' false, rest)
    | 'A' | 'z' => some (.position false, rest)
    | 'b' => readBoundary mode rest
    | 'B' | '<' | '>' => some (.position true, rest)
    | c => if c.toNat < 0x80 ∧ ¬ c.isAlphanum then some (.literal c false, rest) else none

end TaggedValues.Pattern
