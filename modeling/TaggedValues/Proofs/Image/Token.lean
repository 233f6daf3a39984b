import TaggedValues.Proofs.Image.Spelling
import TaggedValues.Proofs.Text.Positional

/-!
# Which tokens are words

The spellings of a word in terms of the rows of digits in them and of the numbers that the rows
stand for (`Word.ofToken?_grammar`). It is the number that has to fit and not the row, so a token
may have any length, and a word has the bits of its number or of the negative of it, none lost.
-/

namespace TaggedValues

open Text Numeral

namespace Word

section
variable {word : Word} {n : Nat}

/-- A number that a word holds is in the word as it is. -/
theorem eq_ofNat_iff (h : n < 2 ^ 32) : word = ⟨UInt32.ofNat n⟩ ↔ word.bits.toNat = n := by
  have hbits : (UInt32.ofNat n).toNat = n := UInt32.toNat_ofNat_of_lt' h
  rw [Word.mk.injEq, ← UInt32.toNat_inj, hbits]

/-- A token is read as a word when it is a hexadecimal row of digits behind a mark, a decimal row
behind a minus sign or a decimal row, and the number of the row fits. Behind a mark or alone, where
a plus sign may stand in front of the row, the number is the bits of the word; behind a minus sign
these are its two's complement. Zeros in front of a row make no difference. -/
theorem ofToken?_grammar :
    (∀ (token : List Char) (word : Word), ofToken? token = some word ↔
      (∃ mark sign digits, (mark = 'x' ∨ mark = 'X') ∧ (sign = [] ∨ sign = ['+']) ∧
        token = '0' :: mark :: (sign ++ digits) ∧ IsRow 16 digits ∧
        value 16 digits < 2 ^ 32 ∧ word.bits.toNat = value 16 digits) ∨
      (∃ digits, token = '-' :: digits ∧ IsRow 10 digits ∧ value 10 digits ≤ 2 ^ 31 ∧
        word.bits.toNat = (2 ^ 32 - value 10 digits) % 2 ^ 32) ∨
      ∃ sign digits, (sign = [] ∨ sign = ['+']) ∧ token = sign ++ digits ∧ IsRow 10 digits ∧
        value 10 digits < 2 ^ 32 ∧ word.bits.toNat = value 10 digits) ∧
    ∀ (base zeros : Nat) (digits : List Char), IsRow base digits →
      IsRow base (List.replicate zeros '0' ++ digits) ∧
        value base (List.replicate zeros '0' ++ digits) = value base digits := by
  refine ⟨fun token word => ?_, fun base zeros digits h =>
    ⟨h.zeros zeros, value_zeros base zeros digits⟩⟩
  rw [ofToken?_eq_some_iff]
  constructor
  · intro h
    cases h with
    | @hexadecimal mark text n hmark hsigned hle =>
      obtain ⟨sign, digits, hsign, rfl, hrow, rfl⟩ := signed_iff.1 hsigned
      have hlt : value 16 digits < 2 ^ 32 := Nat.lt_succ_of_le hle
      exact .inl ⟨mark, sign, digits, hmark, hsign, rfl, hrow, hlt, (eq_ofNat_iff hlt).1 rfl⟩
    | @negative digits n hdigits hle =>
      obtain ⟨hrow, rfl⟩ := digits_iff.1 hdigits
      exact .inr (.inl ⟨digits, rfl, hrow, hle, UInt32.toNat_ofNat'⟩)
    | @decimal _ n hsigned hle =>
      obtain ⟨sign, digits, hsign, rfl, hrow, rfl⟩ := signed_iff.1 hsigned
      have hlt : value 10 digits < 2 ^ 32 := Nat.lt_succ_of_le hle
      exact .inr (.inr ⟨sign, digits, hsign, rfl, hrow, hlt, (eq_ofNat_iff hlt).1 rfl⟩)
  · rintro (⟨mark, sign, digits, hmark, hsign, rfl, hrow, hlt, hbits⟩ |
      ⟨digits, rfl, hrow, hle, hbits⟩ | ⟨sign, digits, hsign, rfl, hrow, hlt, hbits⟩)
    · rw [(eq_ofNat_iff hlt).2 hbits]
      exact .hexadecimal hmark (signed_iff.2 ⟨sign, digits, hsign, rfl, hrow, rfl⟩)
        (Nat.le_of_lt_succ hlt)
    · have hword : word = ⟨UInt32.ofNat (maxBits + 1 - value 10 digits)⟩ := by
        rw [Word.mk.injEq, ← UInt32.toNat_inj, UInt32.toNat_ofNat']
        exact hbits
      rw [hword]
      exact .negative (digits_iff.2 ⟨hrow, rfl⟩) hle
    · rw [(eq_ofNat_iff hlt).2 hbits]
      exact .decimal (signed_iff.2 ⟨sign, digits, hsign, rfl, hrow, rfl⟩) (Nat.le_of_lt_succ hlt)

/-- The greatest number and the least, with zeros in front. -/
theorem ofToken?_grammar_bounds :
    IsRow 16 "fFfFfFfF".toList ∧ IsRow 16 "00fFfFfFfF".toList ∧
      ofToken? "0X+00fFfFfFfF".toList = some ⟨0xFFFFFFFF⟩ ∧
      ofToken? "-002147483648".toList = some ⟨0x80000000⟩ := by
  obtain ⟨hread, hzeros⟩ := ofToken?_grammar
  have hhex : IsRow 16 "fFfFfFfF".toList := by decide
  have hdecimal : IsRow 10 "2147483648".toList := by decide
  have hvalue : value 16 "fFfFfFfF".toList = 0xFFFFFFFF := by decide +kernel
  have hvalue' : value 10 "2147483648".toList = 2 ^ 31 := by decide +kernel
  obtain ⟨hhex', hsame⟩ := hzeros 16 2 _ hhex
  obtain ⟨hdecimal', hsame'⟩ := hzeros 10 2 _ hdecimal
  rw [hvalue] at hsame
  rw [hvalue'] at hsame'
  have hbits : (⟨0xFFFFFFFF⟩ : Word).bits.toNat = 0xFFFFFFFF := rfl
  refine ⟨hhex, hhex', (hread _ _).2 (.inl ?_), (hread _ _).2 (.inr (.inl ?_))⟩
  · refine ⟨'X', ['+'], List.replicate 2 '0' ++ "fFfFfFfF".toList, .inr rfl, .inr rfl, rfl, hhex',
      ?_, hbits.trans hsame.symm⟩
    rw [hsame]
    decide
  · refine ⟨List.replicate 2 '0' ++ "2147483648".toList, rfl, hdecimal', Nat.le_of_eq hsame', ?_⟩
    rw [hsame']
    rfl

end

end Word

end TaggedValues
