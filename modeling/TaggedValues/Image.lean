import TaggedValues.Fault
import TaggedValues.Heap
import TaggedValues.Text.Line

/-!
# Word images

An image is a text that stands for a program: a list of words, separated by blanks and line ends,
with comments from `#` to the end of the line. The first word is the result of the program and the
others fill its heap from offset 0 on.

```text
0x1      # result: the pair at offset 0
20 40    # heap words 0 and 1, the integers 10 and 20
```

A word is written as a decimal numeral, as a hexadecimal numeral behind `0x`, or as a negative
decimal numeral, which stands for its two's complement.
-/

namespace TaggedValues

open Text

/-- The largest number that a word holds. -/
def Word.maxBits : Nat := 0xFFFFFFFF

/-- The largest number of which a word can stand for the negative. -/
def Word.maxNegated : Nat := 0x80000000

/-- The word that a token stands for. -/
def Word.ofToken? : List Char → Option Word
  | '0' :: 'x' :: digits | '0' :: 'X' :: digits =>
    (Numeral.read 16 maxBits digits).toOption.map fun n => ⟨UInt32.ofNat n⟩
  | '-' :: digits =>
    (Numeral.readUnsigned 10 maxNegated digits).toOption.map fun n => ⟨-UInt32.ofNat n⟩
  | token => (Numeral.read 10 maxBits token).toOption.map fun n => ⟨UInt32.ofNat n⟩

/-- A token and where it stands. -/
structure Located where
  /-- The characters of the token. -/
  token : List Char
  /-- The line of the token, counted from 1. -/
  line : Nat
deriving DecidableEq, Repr

/-- The word that a token stands for, or the fault that names the token and its line. -/
def Located.word (located : Located) : Except Fault Word :=
  match Word.ofToken? located.token with
  | some word => .ok word
  | none => .error (.invalidToken (String.ofList located.token) located.line)

/-- A program in the form of its result and its heap. -/
structure Image where
  /-- The result of the program. -/
  result : Word
  /-- The first words of the heap. -/
  heap : List Word
deriving DecidableEq, Repr

namespace Image

/-- The tokens of the source with their lines, comments left out. -/
def tokens (source : List Char) : List Located :=
  ((lines source).zipIdx 1).flatMap fun (line, number) =>
    (Text.tokens (uncommented line)).map fun token => { token, line := number }

/-- The words of the source, or the fault of the first token that is none. -/
def words (source : List Char) : Except Fault (List Word) :=
  (tokens source).mapM Located.word

/-- The image that a source stands for. -/
def ofText (source : String) : Except Fault Image :=
  match words source.toList with
  | .error fault => .error fault
  | .ok [] => .error .emptyImage
  | .ok (result :: heap) => .ok { result, heap }

/-- Fails when the heap words do not fit into a heap of `size` words. -/
def fits (image : Image) (size : Nat) : Except Fault Unit :=
  if size < image.heap.length then .error (.imageTooLarge image.heap.length size) else .ok ()

section
variable {image : Image} {size : Nat}

/-- An image fits a heap if and only if it has no more words than the heap. -/
theorem fits_eq_ok_iff : image.fits size = .ok () ↔ image.heap.length ≤ size := by
  rw [fits]
  split <;> simp_all

/-- An image that does not fit is refused with both sizes. -/
theorem fits_eq_error_iff :
    image.fits size = .error (.imageTooLarge image.heap.length size) ↔
      size < image.heap.length := by
  rw [fits]
  split <;> simp_all

end

end Image

end TaggedValues
