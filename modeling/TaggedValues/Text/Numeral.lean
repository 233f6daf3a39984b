/-!
# Numerals

Reading and writing natural numbers in a positional notation. Readers carry a bound, and the first
thing that is wrong from the left decides how they fail: at each character a bad digit is found
before an overflow. Leading zeros are allowed everywhere. What readers accept is the grammar
`Digits`, cut off at the bound (`readUnsigned_eq_ok_iff`).

Numerals with a decimal point or an exponent are only recognised (`isReal`).
-/

namespace TaggedValues.Text

namespace Numeral

/-- Why a text is not a numeral. -/
inductive Fault where
  /-- There is nothing to read. -/
  | empty
  /-- A character is no digit of the base, or a sign stands where none is allowed. -/
  | invalidDigit
  /-- The value exceeds the bound. -/
  | tooLarge
deriving DecidableEq, Repr

/-- The wording of a fault. -/
def Fault.message : Fault → String
  | .empty => "cannot parse integer from empty string"
  | .invalidDigit => "invalid digit found in string"
  | .tooLarge => "number too large to fit in target type"

/-! ## Reading -/

/-- The value of a digit of a base up to sixteen. Letters count in either case. -/
def digit? (base : Nat) (c : Char) : Option Nat :=
  let value :=
    if '0' ≤ c ∧ c ≤ '9' then c.toNat - '0'.toNat
    else if 'a' ≤ c ∧ c ≤ 'f' then c.toNat - 'a'.toNat + 10
    else if 'A' ≤ c ∧ c ≤ 'F' then c.toNat - 'A'.toNat + 10
    else 16
  if value < base then some value else none

/-- Reads the remaining digits of a numeral whose digits so far have the given value. -/
def readDigits (base bound value : Nat) : List Char → Except Fault Nat
  | [] => .ok value
  | c :: rest =>
    match digit? base c with
    | none => .error .invalidDigit
    | some d =>
      if base * value + d ≤ bound then readDigits base bound (base * value + d) rest
      else .error .tooLarge

/-- Reads a numeral without a sign, at least one digit long and at most `bound` in value. -/
def readUnsigned (base bound : Nat) : List Char → Except Fault Nat
  | [] => .error .empty
  | digits => readDigits base bound 0 digits

/-- Reads a numeral that may have a plus sign. A sign alone is a bad digit, and so is a minus. -/
def read (base bound : Nat) : List Char → Except Fault Nat
  | ['+'] => .error .invalidDigit
  | '+' :: digits => readUnsigned base bound digits
  | digits => readUnsigned base bound digits

/-! ## What is read -/

/-- The characters are digits of the base, at least one, and stand for the number. -/
inductive Digits (base : Nat) : List Char → Nat → Prop where
  | single {c : Char} {d : Nat} : digit? base c = some d → Digits base [c] d
  | snoc {text : List Char} {n : Nat} {c : Char} {d : Nat} :
    Digits base text n → digit? base c = some d → Digits base (text ++ [c]) (base * n + d)

/-- The characters are digits of the base, behind a plus sign perhaps, and stand for the number. -/
inductive Signed (base : Nat) : List Char → Nat → Prop where
  | plain {text : List Char} {n : Nat} : Digits base text n → Signed base text n
  | plus {text : List Char} {n : Nat} : Digits base text n → Signed base ('+' :: text) n

section
variable {base bound value n : Nat} {text : List Char} {c : Char}

/-- Digits behind others go on from the value of these. -/
theorem readDigits_append (base bound value : Nat) (text rest : List Char) :
    readDigits base bound value (text ++ rest) =
      (readDigits base bound value text).bind (readDigits base bound · rest) := by
  fun_induction readDigits base bound value text <;> grind [readDigits, Except.bind]

/-- The last character of what is read is a digit behind what could be read without it. -/
theorem readDigits_snoc_eq_ok_iff :
    readDigits base bound value (text ++ [c]) = .ok n ↔
      ∃ m d, readDigits base bound value text = .ok m ∧ digit? base c = some d ∧
        base * m + d = n ∧ n ≤ bound := by
  rw [readDigits_append]
  cases readDigits base bound value text with
  | error => simp [Except.bind]
  | ok m =>
    cases hd : digit? base c with
    | none => simp [Except.bind, readDigits, hd]
    | some d =>
      simp only [Except.bind, readDigits, hd]
      split <;> grind

/-- A row of digits is not empty. -/
theorem Digits.ne_nil (h : Digits base text n) : text ≠ [] := by
  cases h <;> simp

/-- A text that is not empty is read digit by digit from zero. -/
theorem readUnsigned_of_ne_nil (h : text ≠ []) :
    readUnsigned base bound text = readDigits base bound 0 text := by
  cases text with
  | nil => exact absurd rfl h
  | cons => rfl

/-- What is read without a sign is digits that stand for a number within the bound. -/
theorem digits_of_readUnsigned (digits : List Char)
    (h : readUnsigned base bound digits.reverse = .ok n) :
    Digits base digits.reverse n ∧ n ≤ bound := by
  induction digits generalizing n with
  | nil => cases h
  | cons c rest ih =>
    rw [List.reverse_cons] at h ⊢
    rw [readUnsigned_of_ne_nil (by simp)] at h
    obtain ⟨m, d, hm, hd, rfl, hle⟩ := readDigits_snoc_eq_ok_iff.1 h
    refine ⟨?_, hle⟩
    cases rest with
    | nil =>
      cases hm
      simpa using Digits.single hd
    | cons => exact (ih ((readUnsigned_of_ne_nil (by simp)).trans hm)).1.snoc hd

/-- The reader accepts digits that stand for a number within the bound, and nothing else. -/
theorem readUnsigned_eq_ok_iff (hbase : 0 < base) :
    readUnsigned base bound text = .ok n ↔ Digits base text n ∧ n ≤ bound := by
  constructor
  · intro h
    simpa using digits_of_readUnsigned text.reverse (by simpa using h)
  · rintro ⟨h, hle⟩
    rw [readUnsigned_of_ne_nil h.ne_nil]
    induction h with
    | @single c d hd =>
      rw [← List.nil_append [c]]
      exact readDigits_snoc_eq_ok_iff.2 ⟨0, d, rfl, hd, by simp, hle⟩
    | @snoc text m c d _ hd ih =>
      have : m ≤ base * m := Nat.le_mul_of_pos_left m hbase
      exact readDigits_snoc_eq_ok_iff.2 ⟨m, d, ih (by omega), hd, rfl, hle⟩

/-- Every character of a row of digits is a digit. -/
theorem Digits.isSome_digit? (h : Digits base text n) : ∀ c ∈ text, (digit? base c).isSome := by
  induction h with
  | single hd => simp [hd]
  | snoc _ hd ih => simpa [or_imp, forall_and, hd] using ih

/-- A plus sign is no digit. -/
theorem not_digits_plus (hbase : base ≤ 16) : ¬ Digits base ('+' :: text) n := by
  intro h
  have := h.isSome_digit? '+' List.mem_cons_self
  have hplus : digit? base '+' = if 16 < base then some 16 else none := rfl
  simp [hplus, Nat.not_lt.2 hbase] at this

/-- The reader accepts numerals that stand for a number within the bound, and nothing else. -/
theorem read_eq_ok_iff (hpos : 0 < base) (hbase : base ≤ 16) :
    read base bound text = .ok n ↔ Signed base text n ∧ n ≤ bound := by
  unfold read
  split
  · refine ⟨nofun, fun ⟨h, _⟩ => ?_⟩
    cases h with
    | plain h => exact absurd h (not_digits_plus hbase)
    | plus h => exact absurd rfl h.ne_nil
  · rw [readUnsigned_eq_ok_iff hpos]
    refine and_congr_left fun _ => ⟨.plus, fun h => ?_⟩
    cases h with
    | plain h => exact absurd h (not_digits_plus hbase)
    | plus h => exact h
  · rename_i hplus
    rw [readUnsigned_eq_ok_iff hpos]
    refine and_congr_left fun _ => ⟨.plain, fun h => ?_⟩
    cases h with
    | plain h => exact h
    | plus h => exact absurd rfl (hplus _)

end

/-! ## Writing -/

/-- The decimal numeral of a natural number, without leading zeros. -/
def decimal (n : Nat) : String :=
  String.ofList (Nat.toDigits 10 n)

/-- The decimal numeral of an integer, in the pieces in which it is written: sign, then digits. -/
def signedPieces (n : Int) : List String :=
  if n < 0 then ["-", decimal n.natAbs] else [decimal n.natAbs]

/-- A number of 32 bits as `0x` and eight lower case hexadecimal digits, in the pieces in which it
is written: the mark, each leading zero, then the digits. -/
def hexPieces (n : UInt32) : List String :=
  let digits := Nat.toDigits 16 n.toNat
  "0x" :: List.replicate (8 - digits.length) "0" ++ [String.ofList digits]

example : read 10 255 "+0255".toList = .ok 255 := by rfl

example : read 10 255 "256x".toList = .error .tooLarge := by rfl

example : String.join (hexPieces 0xBEEF) = "0x0000beef" := by decide

end Numeral

/-! ## Decimal fractions -/

/-- Whether the text is an exponent behind its letter: digits, behind a sign perhaps. -/
def isExponent (text : List Char) : Bool :=
  let digits := match text with
    | '+' :: rest | '-' :: rest => rest
    | text => text
  !digits.isEmpty && digits.all Char.isDigit

/-- Whether the text is a numeral without a sign: digits, with a point among them or beside them
perhaps, and perhaps an exponent. -/
def isFraction (text : List Char) : Bool :=
  let whole := text.takeWhile Char.isDigit
  let rest := text.drop whole.length
  let (places, rest) := match rest with
    | '.' :: rest =>
      let places := rest.takeWhile Char.isDigit
      (places, rest.drop places.length)
    | rest => ([], rest)
  (!whole.isEmpty || !places.isEmpty) &&
    match rest with
    | [] => true
    | c :: rest => (c = 'e' || c = 'E') && isExponent rest

/-- Whether the text stands for a real number without a sign, for infinity, or for no number. The
case of the letters does not matter. -/
def isReal (text : List Char) : Bool :=
  isFraction text ||
    String.ofList (text.map Char.toLower) ∈ ["inf", "infinity", "nan"]

example : ["5", "5.", ".5", "1e-3", "NaN"].all fun text => isReal text.toList := by decide +kernel

example : ["", ".", "1e", "+1", "e1"].all fun text => !isReal text.toList := by decide +kernel

end TaggedValues.Text
