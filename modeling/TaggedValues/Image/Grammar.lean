import TaggedValues.Image

/-!
# The grammar of images

The spellings of a word (`Word.Spelled`) and the texts that lay out a list of words
(`Image.Layout`): any blanks and comments may stand between two words, and something must.
-/

namespace TaggedValues

open Text

/-- The token is a spelling of the word. -/
inductive Word.Spelled : List Char → Word → Prop where
  | hexadecimal {mark : Char} {text : List Char} {n : Nat} :
    mark = 'x' ∨ mark = 'X' → Numeral.Signed 16 text n → n ≤ maxBits →
    Spelled ('0' :: mark :: text) ⟨UInt32.ofNat n⟩
  | negative {text : List Char} {n : Nat} :
    Numeral.Digits 10 text n → n ≤ maxNegated →
    Spelled ('-' :: text) ⟨UInt32.ofNat (maxBits + 1 - n)⟩
  | decimal {text : List Char} {n : Nat} :
    Numeral.Signed 10 text n → n ≤ maxBits → Spelled text ⟨UInt32.ofNat n⟩

namespace Image

/-- The text holds blanks and closed comments only. -/
inductive Gap : List Char → Prop where
  | nil : Gap []
  | blank {c : Char} {rest : List Char} : isBlank c → Gap rest → Gap (c :: rest)
  | comment {text rest : List Char} :
    '\n' ∉ text → Gap rest → Gap ('#' :: text ++ '\n' :: rest)

/-- A token ends in front of the text. -/
def EndsToken (text : List Char) : Prop := ∀ c ∈ text.head?, isBlank c ∨ c = '#'

instance : (text : List Char) → Decidable (EndsToken text)
  | [] => .isTrue (by simp [EndsToken])
  | c :: _ => decidable_of_iff (isBlank c ∨ c = '#') (by simp [EndsToken])

/-- The text lays out the words. The last comment may be left open. -/
inductive Layout : List Char → List Word → Prop where
  | gap {text : List Char} : Gap text → Layout text []
  | comment {gap text : List Char} : Gap gap → '\n' ∉ text → Layout (gap ++ '#' :: text) []
  | word {gap token rest : List Char} {word : Word} {words : List Word} :
    Gap gap → Word.Spelled token word → EndsToken rest → Layout rest words →
    Layout (gap ++ token ++ rest) (word :: words)

end Image

end TaggedValues
