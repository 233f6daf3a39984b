import TaggedValues.Image

/-!
# Reading an image in one pass

`Image.scan` reads an image character by character, from left to right and once. A `Scanner` knows
the line it is on, whether it is inside a comment, the characters of the token it is inside, and the
words found so far. It stops at the first token that is no word, whatever follows.
-/

namespace TaggedValues

open Text

/-- Where the reading of an image stands. -/
structure Scanner where
  /-- The line, counted from 1. -/
  line : Nat := 1
  /-- Whether the next character belongs to a comment, unless it ends the line. -/
  inComment : Bool := false
  /-- The characters of the open token, the last one first. -/
  token : List Char := []
  /-- The words found so far, the last one first. -/
  words : List Word := []
deriving DecidableEq, Repr

namespace Scanner

/-- Ends the open token, if there is one. -/
def close (scanner : Scanner) : Except Fault Scanner :=
  match scanner.token with
  | [] => .ok scanner
  | token =>
    match Word.ofToken? token.reverse with
    | some word => .ok { scanner with token := [], words := word :: scanner.words }
    | none => .error (.invalidToken (String.ofList token.reverse) scanner.line)

/-- Reads a character. -/
def read (scanner : Scanner) (c : Char) : Except Fault Scanner :=
  if c = '\n' then
    scanner.close.map fun scanner =>
      { scanner with line := scanner.line + 1, inComment := false }
  else if scanner.inComment then .ok scanner
  else if c = '#' then scanner.close.map fun scanner => { scanner with inComment := true }
  else if isBlank c then scanner.close
  else .ok { scanner with token := c :: scanner.token }

end Scanner

/-- Reads an image in one pass. -/
def Image.scan (source : List Char) : Except Fault Image := do
  let scanner ← source.foldlM Scanner.read {}
  let scanner ← scanner.close
  match scanner.words.reverse with
  | [] => .error .emptyImage
  | result :: heap => .ok { result, heap }

end TaggedValues
