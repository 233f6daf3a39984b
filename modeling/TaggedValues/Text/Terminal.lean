/-!
# Text for terminals

A terminal does not show every character of a text: control characters steer it, and an escape
character opens a sequence that steers it too. `visible` keeps what is shown.
-/

namespace TaggedValues.Text

/-- Where in a sequence a terminal is. -/
inductive Sequence where
  /-- Outside of sequences. -/
  | outside
  /-- Behind the escape character. -/
  | escape
  /-- In a short sequence, the last character of which comes from `0` on. -/
  | intermediate
  /-- In a control sequence, the last character of which comes from `@` on. -/
  | control
  /-- In a command to the operating system, which a bell ends. -/
  | command
  /-- At the head of a control string, and nothing of it read. -/
  | deviceEntry
  /-- In the parameters at the head of a control string. -/
  | deviceParameters
  /-- Behind the parameters at the head of a control string. -/
  | deviceIntermediate
  /-- In a string that the terminal keeps to itself, until a string terminator. -/
  | content
deriving DecidableEq, Repr

/-- Whether the character is one of those that end a line, a page or a column. -/
def isLayout (c : Char) : Bool := c = '\t' || c = '\n' || c = '\x0c' || c = '\r'

/-- Whether a terminal shows the character, be it as an empty place. -/
def isShown (c : Char) : Bool := isLayout c || (' ' ≤ c && c ≠ '\x7f')

/-- Whether the character holds a string terminator, which is a byte of its UTF-8 form. -/
def holdsTerminator (c : Char) : Bool := (String.utf8EncodeChar c).contains 0x9C

namespace Sequence

/-- Whether control characters that occur in the sequence are obeyed at once. -/
def obeysControls : Sequence → Bool
  | outside | escape | intermediate | control => true
  | command | deviceEntry | deviceParameters | deviceIntermediate | content => false

/-- Where the terminal is behind a character of the sequence, which neither breaks it off nor is a
control character obeyed at once. -/
def next (c : Char) : Sequence → Sequence
  | outside => outside
  | escape =>
    if ' ' ≤ c ∧ c ≤ '/' then intermediate
    else if c = '[' then control
    else if c = ']' then command
    else if c = 'P' then deviceEntry
    else if c = 'X' ∨ c = '^' ∨ c = '_' then content
    else if '0' ≤ c ∧ c ≤ '~' then outside
    else escape
  | intermediate => if '0' ≤ c ∧ c ≤ '~' then outside else intermediate
  | control => if '@' ≤ c ∧ c ≤ '~' then outside else control
  | command => if c = '\x07' then outside else command
  | deviceEntry =>
    if ' ' ≤ c ∧ c ≤ '/' then deviceIntermediate
    else if '0' ≤ c ∧ c ≤ '?' then deviceParameters
    else if '@' ≤ c ∧ c ≤ '~' then content
    else deviceEntry
  | deviceParameters =>
    if ' ' ≤ c ∧ c ≤ '/' then deviceIntermediate
    else if '<' ≤ c ∧ c ≤ '~' then content
    else deviceParameters
  | deviceIntermediate => if '0' ≤ c ∧ c ≤ '~' then content else deviceIntermediate
  | content => if holdsTerminator c then outside else content

/-- Reads a character: gives where the terminal is behind it, and whether the character is shown.
An escape character opens a sequence anywhere, two others break one off, and so does a layout
character that is obeyed within one. -/
def read (sequence : Sequence) (c : Char) : Sequence × Bool :=
  if c = '\x1b' then (escape, false)
  else if c = '\x18' ∨ c = '\x1a' then (outside, false)
  else if sequence = outside then (outside, isShown c)
  else if c < ' ' ∧ sequence.obeysControls then
    if isLayout c then (outside, true) else (sequence, false)
  else (sequence.next c, false)

/-- The characters of a text that are shown. -/
def visible (sequence : Sequence) : List Char → List Char
  | [] => []
  | c :: rest =>
    let (behind, shown) := sequence.read c
    if shown then c :: behind.visible rest else behind.visible rest

end Sequence

/-- What a terminal shows of a text. -/
def visible (text : String) : String :=
  String.ofList (Sequence.outside.visible text.toList)

example : visible "\x1b[1;31mred\x1b[0m\x07" = "red" := by decide +kernel

end TaggedValues.Text
