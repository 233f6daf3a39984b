import Mathlib.Data.List.Induction
import Mathlib.Data.Nat.Digits.Defs
import TaggedValues.Text.Numeral

/-!
# Numerals in positional notation

What a row of digits is (`IsRow`) and which number it stands for (`value`). There are sixteen digits,
of which a base takes the first, and each digit of a row counts as many times as much as the one
behind it as the base says. Nothing in this reads from left to right or knows a bound.

A character is read as a digit exactly when it has a value below the base, and then as that value
(`digit?_eq`). So the texts that are numerals are the rows of digits, and they stand for the numbers
that the rows do (`digits_iff`). Zeros in front of a row change nothing (`value_zeros`).
-/

namespace TaggedValues.Text.Numeral

/-! ## Rows of digits -/

/-- The value of a digit: its place among the sixteen, with the letters in either case. Other
characters have the value 16. -/
def digitValue (c : Char) : Nat :=
  min ("0123456789abcdef".toList.idxOf c) ("0123456789ABCDEF".toList.idxOf c)

/-- The characters are digits of the base, at least one of them. -/
def IsRow (base : Nat) (text : List Char) : Prop :=
  text ≠ [] ∧ ∀ c ∈ text, digitValue c < base

instance (base : Nat) (text : List Char) : Decidable (IsRow base text) :=
  decidable_of_iff ((!text.isEmpty && text.all fun c => decide (digitValue c < base)) = true)
    (by simp [IsRow])

/-- The number that a row of digits stands for. -/
def value (base : Nat) (text : List Char) : Nat :=
  Nat.ofDigits base (text.reverse.map digitValue)

example : value 16 "0fF".toList = 255 := by decide

section
variable {base n : Nat} {text : List Char} {c low high : Char}

/-! ## Digits -/

/-- Characters in a row whose values go up by one have the values that their places say. -/
theorem digitValue_of_le
    (h : ∀ k < high.toNat + 1 - low.toNat, digitValue (Char.ofNat (low.toNat + k)) = k + n)
    (hlow : low ≤ c) (hhigh : c ≤ high) : digitValue c = c.toNat - low.toNat + n := by
  have hle : low.toNat ≤ c.toNat := UInt32.le_iff_toNat_le.1 hlow
  have hle' : c.toNat ≤ high.toNat := UInt32.le_iff_toNat_le.1 hhigh
  have hplace := h (c.toNat - low.toNat) (by omega)
  rwa [Nat.add_sub_of_le hle, Char.ofNat_toNat] at hplace

/-- What is neither a numeral nor one of the letters up to `f` is not among the digits. -/
theorem digitValue_of_not_mem (hnumeral : ¬ ('0' ≤ c ∧ c ≤ '9')) (hlower : ¬ ('a' ≤ c ∧ c ≤ 'f'))
    (hupper : ¬ ('A' ≤ c ∧ c ≤ 'F')) : digitValue c = 16 := by
  have hrange : ("0123456789abcdef".toList ++ "0123456789ABCDEF".toList).all (fun c =>
      ('0' ≤ c ∧ c ≤ '9') ∨ ('a' ≤ c ∧ c ≤ 'f') ∨ ('A' ≤ c ∧ c ≤ 'F')) = true := by decide
  have hnot : c ∉ "0123456789abcdef".toList ++ "0123456789ABCDEF".toList := by
    intro hmem
    rcases of_decide_eq_true (List.all_eq_true.1 hrange c hmem) with h | h | h
    · exact hnumeral h
    · exact hlower h
    · exact hupper h
  rw [List.mem_append, not_or] at hnot
  rw [digitValue, List.idxOf_eq_length hnot.1, List.idxOf_eq_length hnot.2]
  rfl

/-- A character is read as a digit when its value is below the base, and then as that value. -/
theorem digit?_eq (base : Nat) (c : Char) :
    digit? base c = if digitValue c < base then some (digitValue c) else none := by
  have hvalue : digitValue c =
      if '0' ≤ c ∧ c ≤ '9' then c.toNat - '0'.toNat
      else if 'a' ≤ c ∧ c ≤ 'f' then c.toNat - 'a'.toNat + 10
      else if 'A' ≤ c ∧ c ≤ 'F' then c.toNat - 'A'.toNat + 10
      else 16 := by
    split
    · next hnumeral => exact digitValue_of_le (n := 0) (by decide) hnumeral.1 hnumeral.2
    · next hnumeral =>
      split
      · next hlower => exact digitValue_of_le (by decide) hlower.1 hlower.2
      · next hlower =>
        split
        · next hupper => exact digitValue_of_le (by decide) hupper.1 hupper.2
        · next hupper => exact digitValue_of_not_mem hnumeral hlower hupper
  rw [digit?, hvalue]

/-! ## Rows of digits -/

/-- A row of one digit has the value of the digit. -/
theorem value_singleton (base : Nat) (c : Char) : value base [c] = digitValue c :=
  Nat.ofDigits_singleton

/-- A digit behind a row moves the others up. -/
theorem value_snoc (base : Nat) (text : List Char) (c : Char) :
    value base (text ++ [c]) = base * value base text + digitValue c := by
  rw [value, List.reverse_append, List.reverse_singleton, List.singleton_append, List.map_cons,
    Nat.ofDigits_cons, Nat.add_comm]
  rfl

/-- Zeros in front of a row change nothing. -/
theorem value_zeros (base zeros : Nat) (text : List Char) :
    value base (List.replicate zeros '0' ++ text) = value base text := by
  have hzero : digitValue '0' = 0 := rfl
  rw [value, List.reverse_append, List.map_append, List.reverse_replicate, List.map_replicate,
    hzero, Nat.ofDigits_append_replicate_zero]
  rfl

/-- Zeros in front of a row make a row. -/
theorem IsRow.zeros (h : IsRow base text) (zeros : Nat) :
    IsRow base (List.replicate zeros '0' ++ text) := by
  obtain ⟨hne, hdigits⟩ := h
  have hbase : 0 < base := by
    obtain ⟨c, hc⟩ := List.exists_mem_of_ne_nil text hne
    exact Nat.zero_lt_of_lt (hdigits c hc)
  refine ⟨List.append_ne_nil_of_right_ne_nil _ hne, fun c hc => ?_⟩
  rcases List.mem_append.1 hc with hzero | htext
  · rw [List.eq_of_mem_replicate hzero]
    exact hbase
  · exact hdigits c htext

/-- A row of digits denotes its value. -/
theorem digits_of_isRow (h : IsRow base text) : Digits base text (value base text) := by
  obtain ⟨hne, hdigits⟩ := h
  induction text using List.reverseRec with
  | nil => exact absurd rfl hne
  | append_singleton rest c ih =>
    have hlast : digit? base c = some (digitValue c) := by
      rw [digit?_eq, if_pos (hdigits c (by simp))]
    cases rest with
    | nil =>
      rw [List.nil_append, value_singleton]
      exact .single hlast
    | cons first rest =>
      rw [value_snoc]
      exact .snoc (ih (List.cons_ne_nil _ _) fun d hd => hdigits d (List.mem_append_left _ hd)) hlast

/-- The numerals are the rows of digits, and each stands for the number that the row does. -/
theorem digits_iff : Digits base text n ↔ IsRow base text ∧ value base text = n := by
  constructor
  · intro h
    induction h with
    | @single c d hd =>
      rw [digit?_eq, Option.ite_none_right_eq_some, Option.some.injEq] at hd
      refine ⟨⟨List.cons_ne_nil _ _, ?_⟩, (value_singleton base c).trans hd.2⟩
      simpa using hd.1
    | @snoc text m c d _ hd ih =>
      rw [digit?_eq, Option.ite_none_right_eq_some, Option.some.injEq] at hd
      obtain ⟨⟨-, hdigits⟩, rfl⟩ := ih
      refine ⟨⟨by simp, ?_⟩, ?_⟩
      · simpa [or_imp, forall_and, hd.1] using hdigits
      · rw [value_snoc, hd.2]
  · rintro ⟨hrow, rfl⟩
    exact digits_of_isRow hrow

/-- A numeral is a row behind a plus sign or behind none. -/
theorem signed_iff :
    Signed base text n ↔
      ∃ sign digits, (sign = [] ∨ sign = ['+']) ∧ text = sign ++ digits ∧ IsRow base digits ∧
        value base digits = n := by
  constructor
  · intro h
    cases h with
    | plain h => exact ⟨[], text, .inl rfl, rfl, digits_iff.1 h⟩
    | @plus digits _ h => exact ⟨['+'], digits, .inr rfl, rfl, digits_iff.1 h⟩
  · rintro ⟨sign, digits, rfl | rfl, rfl, h⟩
    · exact .plain (digits_iff.2 h)
    · exact .plus (digits_iff.2 h)

end

end TaggedValues.Text.Numeral
