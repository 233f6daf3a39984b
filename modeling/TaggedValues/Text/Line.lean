/-!
# Lines and tokens

`lines` cuts a text into its lines, `uncommented` drops the comment of a line and `tokens` cuts what
remains at blank characters. Each walks once over its characters and collects in reverse what it
has found, so long texts need no stack.

The blank characters are those with the Unicode property `White_Space`: 25 code points in ten
ranges. So a no-break space or an ideographic space separates like a plain one.
-/

namespace TaggedValues.Text

/-! ## Blanks -/

/-- The first and last code point of each range of blank characters, in ascending order. -/
def blankRanges : List (Nat × Nat) :=
  [(0x09, 0x0D), (0x20, 0x20), (0x85, 0x85), (0xA0, 0xA0), (0x1680, 0x1680), (0x2000, 0x200A),
    (0x2028, 0x2029), (0x202F, 0x202F), (0x205F, 0x205F), (0x3000, 0x3000)]

/-- Whether the character is blank. -/
def isBlank (c : Char) : Bool :=
  blankRanges.any fun range => range.1 ≤ c.toNat && c.toNat ≤ range.2

/-- The text without the blanks at its ends. -/
def trim (text : List Char) : List Char :=
  ((text.dropWhile isBlank).reverse.dropWhile isBlank).reverse

example : (blankRanges.map fun range => range.2 + 1 - range.1).sum = 25 := by decide

/-- The visible characters of ASCII are not blank. -/
theorem not_isBlank_of_toNat {c : Char} (hlow : 0x21 ≤ c.toNat) (hhigh : c.toNat ≤ 0x7E) :
    ¬ isBlank c := by
  simp [isBlank, blankRanges]
  omega

/-- A text with no blanks at its ends stays as it is. -/
theorem trim_eq_self {text : List Char} (hfirst : ∀ c ∈ text.head?, ¬ isBlank c)
    (hlast : ∀ c ∈ text.getLast?, ¬ isBlank c) : trim text = text := by
  have hkept (text : List Char) (h : ∀ c ∈ text.head?, ¬ isBlank c) :
      text.dropWhile isBlank = text := by
    cases text with
    | nil => rfl
    | cons c rest => exact List.dropWhile_cons_of_neg (h c rfl)
  rw [trim, hkept text hfirst, hkept text.reverse (by rwa [List.head?_reverse]),
    List.reverse_reverse]

/-! ## Cutting a text -/

/-- The lines of a text without their ends. A line ends at a line feed, or at a carriage return and
a line feed; the last line may lack its end, and then a carriage return there is part of it. -/
def lines (text : List Char) : List (List Char) :=
  go [] [] text
where
  /-- Reads on with the characters of the open line and the lines found so far, both reversed. -/
  go (line : List Char) (found : List (List Char)) : List Char → List (List Char)
    | [] => (if line.isEmpty then found else line.reverse :: found).reverse
    | c :: rest =>
      if c = '\n' then
        let ended := if line.head? = some '\r' then line.tail else line
        go [] (ended.reverse :: found) rest
      else go (c :: line) found rest

/-- The line up to its first `#`, which opens a comment. -/
def uncommented (line : List Char) : List Char :=
  line.takeWhile (· ≠ '#')

/-- The longest runs of characters that are not blank, in order. -/
def tokens (text : List Char) : List (List Char) :=
  go [] [] text
where
  /-- Reads on with the characters of the open token and the tokens found so far, both reversed. -/
  go (token : List Char) (found : List (List Char)) : List Char → List (List Char)
    | [] => (close token found).reverse
    | c :: rest =>
      if isBlank c then go [] (close token found) rest else go (c :: token) found rest
  /-- Adds the open token, unless it is empty. -/
  close (token : List Char) (found : List (List Char)) : List (List Char) :=
    if token.isEmpty then found else token.reverse :: found

example : lines "a\r\n\nb\r".toList = ["a".toList, [], "b\r".toList] := by decide

example : tokens (uncommented "  1\t0x2 # 3".toList) = ["1".toList, "0x2".toList] := by decide

end TaggedValues.Text
