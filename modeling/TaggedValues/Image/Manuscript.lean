import TaggedValues.Image

/-!
# Writing an image

A `Manuscript` is an image with everything that is left open when it is written: how each word is
spelled, which blanks and comments stand between the words, and what stands in front of the first
and behind the last. `Manuscript.source` is the text that comes of it. Two words have at least one
blank or comment between them, and only the comment at the very end may lack its line end.
-/

namespace TaggedValues

open Text

/-- A way to spell a word. -/
inductive Word.Spelling (word : Word) where
  /-- As a decimal numeral behind so many zeros. -/
  | decimal (zeros : Nat)
  /-- As a hexadecimal numeral behind a mark and so many zeros, with its letters in either case. -/
  | hexadecimal (mark : Char) (zeros : Nat) (digits : List Char) (hmark : mark = 'x' ∨ mark = 'X')
    (hdigits : digits.map Char.toLower = Nat.toDigits 16 word.bits.toNat)
  /-- As the decimal numeral of the negative number whose two's complement it is. -/
  | negative (zeros : Nat) (hsign : maxNegated ≤ word.bits.toNat)

/-- The characters of a spelling. -/
def Word.Spelling.text {word : Word} : word.Spelling → List Char
  | decimal zeros => List.replicate zeros '0' ++ Nat.toDigits 10 word.bits.toNat
  | hexadecimal mark zeros digits _ _ => '0' :: mark :: (List.replicate zeros '0' ++ digits)
  | negative zeros _ =>
    '-' :: (List.replicate zeros '0' ++ Nat.toDigits 10 (maxBits + 1 - word.bits.toNat))

namespace Image

/-- Something that separates words. -/
inductive Spacer where
  /-- A blank, which may be the end of a line. -/
  | blank (c : Char) (hblank : isBlank c)
  /-- A comment up to the end of its line. -/
  | comment (text : List Char) (htext : '\n' ∉ text)

/-- The characters of a spacer. -/
def Spacer.text : Spacer → List Char
  | blank c _ => [c]
  | comment text _ => '#' :: text ++ ['\n']

/-- A word as it is written, and what stands in front of it. -/
structure Entry where
  /-- What separates the word from the one before. -/
  spacers : List Spacer
  /-- The word. -/
  word : Word
  /-- How it is spelled. -/
  spelling : word.Spelling

/-- The characters of an entry. -/
def Entry.text (entry : Entry) : List Char :=
  entry.spacers.flatMap Spacer.text ++ entry.spelling.text

/-- An image as it is written. -/
structure Manuscript where
  /-- The result. -/
  result : Entry
  /-- The words of the heap. -/
  heap : List Entry
  /-- Each of them is set off from the word before. -/
  spaced : ∀ entry ∈ heap, entry.spacers ≠ []
  /-- What stands behind the last word. -/
  trailer : List Spacer
  /-- A comment at the end that lacks its line end. -/
  remark : Option { text : List Char // '\n' ∉ text }

namespace Manuscript

/-- The image that is written. -/
def image (manuscript : Manuscript) : Image where
  result := manuscript.result.word
  heap := manuscript.heap.map Entry.word

/-- The characters behind the last word. -/
def ending (manuscript : Manuscript) : List Char :=
  manuscript.trailer.flatMap Spacer.text ++
    match manuscript.remark with
    | none => []
    | some remark => '#' :: remark.val

/-- The text of the image. -/
def source (manuscript : Manuscript) : String :=
  String.ofList
    (manuscript.result.text ++ (manuscript.heap.flatMap Entry.text ++ manuscript.ending))

/-- An integer with a comment behind it, and a negative one. -/
example :
    let result : Entry :=
      { spacers := [], word := ⟨0xA⟩, spelling := .hexadecimal 'X' 1 ['A'] (.inr rfl) rfl }
    let second : Entry :=
      { spacers := [.blank ' ' rfl, .comment " five\r".toList (by decide)]
        word := ⟨0xFFFFFFFE⟩
        spelling := .negative 2 (by decide) }
    let manuscript : Manuscript :=
      { result, heap := [second], spaced := by simp [second], trailer := [], remark := none }
    manuscript.source = "0X0A # five\r\n-002" := by decide

end Manuscript

end Image

end TaggedValues
