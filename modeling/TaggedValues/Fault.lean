import TaggedValues.Word
import TaggedValues.Text.Numeral

/-!
# Faults

Everything that can go wrong with a program's result, with an image or with a transfer of bytes, as
a cause (`Fault`). The wording, the diagnostic code and the advice for the user are functions of the
cause.
-/

namespace TaggedValues

open Text

/-- Why bytes could not be moved. -/
inductive Transfer where
  /-- The receiver took nothing although bytes were left. -/
  | shortWrite
  /-- The receiver did not flush. -/
  | flushRefused
  /-- There is no such file. -/
  | missingFile
  /-- The bytes are not UTF-8. -/
  | notText
deriving DecidableEq, Repr

/-- The wording of a failed transfer. -/
def Transfer.message : Transfer → String
  | .shortWrite => "failed to write whole buffer"
  | .flushRefused => "flush refused"
  | .missingFile => "No such file or directory (os error 2)"
  | .notText => "stream did not contain valid UTF-8"

/-- Why a value could not be printed or a program not be run. -/
inductive Fault where
  /-- The pair that `word` refers to, at `offset`, does not lie inside a heap of `size` words. -/
  | pairOutOfBounds (word : Word) (offset : UInt32) (size : Nat)
  /-- A pair lies inside `limit` others. -/
  | depthExceeded (limit : Nat)
  /-- The token on the given line of an image, counted from 1, is not a word. -/
  | invalidToken (token : String) (line : Nat)
  /-- The image has no token. -/
  | emptyImage
  /-- The image has more heap words than the heap. -/
  | imageTooLarge (words size : Nat)
  /-- Bytes could not be moved. -/
  | transfer (cause : Transfer)
  /-- The text did not fit into its draft. -/
  | draftFull
deriving DecidableEq, Repr

namespace Fault

/-- The wording of a fault. -/
def message : Fault → String
  | pairOutOfBounds word offset size =>
    "pair " ++ String.join (Numeral.hexPieces word.bits) ++ " points at heap offset " ++
      Numeral.decimal offset.toNat ++ ", outside of a heap of " ++ Numeral.decimal size ++ " words"
  | depthExceeded limit => "pairs are nested deeper than " ++ Numeral.decimal limit ++ " levels"
  | invalidToken token line => "invalid word '" ++ token ++ "' at line " ++ Numeral.decimal line
  | emptyImage => "the image has no result word"
  | imageTooLarge words size =>
    "the image holds " ++ Numeral.decimal words ++ " heap words but the heap has " ++
      Numeral.decimal size
  | transfer cause => "i/o error: " ++ cause.message
  | draftFull => "cannot format the value"

/-- The diagnostic code under which a fault is reported. -/
def code : Fault → String
  | pairOutOfBounds .. => "tagword::pair_out_of_bounds"
  | depthExceeded .. => "tagword::depth_exceeded"
  | invalidToken .. => "tagword::invalid_token"
  | emptyImage => "tagword::empty_image"
  | imageTooLarge .. => "tagword::image_too_large"
  | transfer .. => "tagword::io"
  | draftFull => "tagword::fmt"

/-- What the user may look at, where there is anything to say. -/
def help : Fault → Option String
  | pairOutOfBounds .. => some "the program returned a pair that was never allocated on the heap"
  | depthExceeded .. =>
    some "a pair probably contains itself, either directly or through another pair"
  | invalidToken .. =>
    some "words are written in decimal, as 0x prefixed hexadecimal, or as negative decimal"
  | imageTooLarge .. => some "raise --heap-words"
  | emptyImage | transfer .. | draftFull => none

end Fault

end TaggedValues
