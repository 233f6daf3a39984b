import TaggedValues.Log
import TaggedValues.Pattern.Reading
import TaggedValues.Text.Cut
import TaggedValues.Text.Numeral

/-!
# Reading directives

A directive is written `target[{field}]=level`. The brackets and the level may be left out; a level
alone is meant for all targets. In place of `{field}`, or in front of it, the brackets may name a
span, which is a stretch of work that bears a name, and the field may be given a value, which is a
number or a pattern. Nothing is done within spans here and values are not looked at, so such a
directive concerns no event and is passed over, and so is a text that is no directive at all.

The parts of a directive are found in its text without the blanks at the ends, but cut at the same
positions from the text with them. So blanks in front shift the parts, and reading fails for good
when a part would then begin or end within a character.

How a list of directives is written that each name a target and a level is said apart from the
reading (`Directive.SpelledAll`).
-/

namespace TaggedValues.Log

open Text

/-! ## Levels -/

/-- The thresholds in the order of their numbers. -/
def thresholds : List (Option Level) :=
  [none, some .error, some .warn, some .info, some .debug, some .trace]

/-- The name of a threshold. -/
def thresholdName (threshold : Option Level) : String :=
  (threshold.map Level.name).getD "OFF"

/-- The threshold that a text names, by a level, by `off` or by a number from 0 to 5. The case of
the letters does not matter. -/
def threshold? (text : List Char) : Option (Option Level) :=
  match Numeral.read 10 5 text with
  | .ok n => thresholds[n]?
  | .error _ => thresholds.find? fun threshold =>
      (thresholdName threshold).toList == text.map Char.toUpper

/-! ## Parts -/

/-- Why a text gives no directive. -/
inductive Misreading where
  /-- It is none, or one that concerns no event. -/
  | passedOver
  /-- A part of it would begin or end within a character. -/
  | brokenCharacter
deriving DecidableEq, Repr

namespace Directive

/-- The part of a text between two positions. -/
def cutPart (text : List Char) (start stop : Nat) : Except Misreading (List Char) :=
  (part? start stop text).elim (.error .brokenCharacter) .ok

/-- The part of a text behind a position. -/
def cutTail (text : List Char) (start : Nat) : Except Misreading (List Char) :=
  (tail? start text).elim (.error .brokenCharacter) .ok

/-- Reads the end of a directive, from a position on: an equals sign and a level. Where the level
is missing everything is shown. -/
def readThreshold (text : List Char) (position : Nat) :
    List Char → Except Misreading (Option Level)
  | [] => .ok (some .trace)
  | '=' :: _ => do
    match ← cutTail text (position + 1) with
    | [] => .ok (some .trace)
    | level => (threshold? level).elim (.error .passedOver) .ok
  | _ => .error .passedOver

/-- Whether a field can be compared with the value: with a signed number, or else with a pattern. -/
def isValue : List Char → Bool
  | '+' :: text => isReal text || Pattern.isPattern ('+' :: text)
  | text => Pattern.isPattern text

/-- What brackets ask for. -/
inductive Brackets where
  /-- A field. -/
  | field (name : String)
  /-- A span or a value. -/
  | other
deriving DecidableEq, Repr

/-- What the name of a span and the text in braces ask for: the name of a field, perhaps with a
value behind an equals sign. A further equals sign ends the value. -/
def Brackets.ofParts (span field : List Char) : Except Misreading Brackets :=
  match field, field.splitOn '=' with
  | [], _ => .error .passedOver
  | _, _ :: value :: _ => if isValue value then .ok .other else .error .passedOver
  | field, _ => if span.isEmpty then .ok (.field (String.ofList field)) else .ok .other

/-- Reads brackets behind the opening one, from a position on. Gives what they ask for, the
position behind them, and the characters there. -/
def readBrackets (text : List Char) (position : Nat) (ahead : List Char) :
    Except Misreading (Brackets × Nat × List Char) :=
  let name := ahead.takeWhile fun c => c ≠ ']' ∧ c ≠ '{'
  let stop := position + byteLength name
  match ahead.drop name.length with
  | ']' :: ahead => do
    let _ ← cutPart text position stop
    return (.other, stop + 1, ahead)
  | '{' :: ahead => do
    let span ← cutPart text position stop
    let name := ahead.takeWhile (· ≠ '}')
    let position := stop + 1
    let stop := position + byteLength name
    match ahead.drop name.length with
    | '}' :: ahead =>
      let brackets ← Brackets.ofParts span (← cutPart text position stop)
      match ahead with
      | ']' :: ahead => return (brackets, stop + 2, ahead)
      | _ => .error .passedOver
    | _ => .error .passedOver
  | _ => .error .passedOver

/-- Whether a directive can begin with the character. -/
def isBeginning (c : Char) : Bool :=
  c = '[' || c = '-' || c = ':' || c = '_' || isAlphanumeric c

/-- Reads a directive. A target alone shows everything. -/
def read (text : List Char) : Except Misreading Directive :=
  let trimmed := trim text
  let target := trimmed.takeWhile fun c => c ≠ '=' ∧ c ≠ '['
  let position := byteLength target
  if trimmed.head?.all (!isBeginning ·) then .error .passedOver
  else
    match trimmed.drop target.length with
    | [] =>
      match threshold? text with
      | some threshold => .ok { target := "", threshold }
      | none => .ok { target := String.ofList text, threshold := some .trace }
    | '[' :: ahead => do
      let target ← cutPart text 0 position
      let (brackets, position, ahead) ← readBrackets text (position + 1) ahead
      let threshold ← readThreshold text position ahead
      match brackets with
      | .field name => return { target := String.ofList target, field := some name, threshold }
      | .other => .error .passedOver
    | ahead => do
      let target ← cutPart text 0 position
      let threshold ← readThreshold text position ahead
      return { target := String.ofList target, threshold }

/-- The directives among the texts, or `none` if a character is broken in one of them. -/
def readAll? : List (List Char) → Option (List Directive)
  | [] => some []
  | text :: rest =>
    match read text with
    | .ok directive => (readAll? rest).map (directive :: ·)
    | .error .passedOver => readAll? rest
    | .error .brokenCharacter => none

end Directive

/-- The directives of a list with commas, or `none` if a character is broken in one of them. -/
def directives? (text : String) : Option (List Directive) :=
  Directive.readAll? (text.toList.splitOn ',')

/-! ## Directives as they are written -/

namespace Directive

/-- The text spells a directive by its target and its level. The target is not empty and holds none
of the characters that divide directives and their parts. -/
inductive Spelled : Directive → List Char → Prop where
  | equal {first : Char} {target level : List Char} {threshold : Option Level} :
    isBeginning first = true → isBlank first = false →
    (∀ c ∈ first :: target, c ≠ '[' ∧ c ≠ '=' ∧ c ≠ ',') → threshold? level = some threshold →
    Spelled { target := String.ofList (first :: target), threshold }
      (first :: target ++ '=' :: level)

/-- The text spells the directives one after the other, with commas between them. -/
inductive SpelledAll : List Directive → List Char → Prop where
  | single {directive : Directive} {text : List Char} :
    directive.Spelled text → SpelledAll [directive] text
  | cons {directive : Directive} {directives : List Directive} {text rest : List Char} :
    directive.Spelled text → SpelledAll directives rest →
    SpelledAll (directive :: directives) (text ++ ',' :: rest)

end Directive

end TaggedValues.Log
