import TaggedValues.Text.Numeral

/-!
# Numerals that are written

The digits that are written for a number are digits that stand for it (`digits_toDigits`), also
behind zeros (`Digits.zeros`) and with letters in the other case (`Digits.of_toLower`). Digits stand
for one number only (`Digits.unique`), so a number can be told from its numeral
(`toDigits_injective`).
-/

namespace TaggedValues.Text.Numeral

section
variable {base n m : Nat} {text : List Char} {c : Char}

/-! ## Digits -/

/-- A digit of base sixteen is one of every base that its value is below. -/
theorem digit?_eq_some {d : Nat} (h : digit? 16 c = some d) (hd : d < base) :
    digit? base c = some d := by
  unfold digit? at h ⊢
  dsimp only at h ⊢
  generalize (if '0' ≤ c ∧ c ≤ '9' then _ else _) = value at h ⊢
  split at h
  · cases h
    rw [if_pos hd]
  · cases h

/-- Digits are characters from `0` to `f`. -/
theorem toNat_of_isSome_digit? (hbase : base ≤ 16) (h : (digit? base c).isSome) :
    0x30 ≤ c.toNat ∧ c.toNat ≤ 0x66 := by
  have hle (a b : Char) : a ≤ b ↔ a.toNat ≤ b.toNat := UInt32.le_iff_toNat_le
  unfold digit? at h
  simp only [hle, Char.reduceToNat] at h
  repeat' split at h
  all_goals first
    | omega
    | cases h

/-- The character that is written for a digit is read as that digit. -/
theorem digit?_digitChar {d : Nat} (hbase : base ≤ 16) (hd : d < base) :
    digit? base d.digitChar = some d := by
  have hsixteen : ∀ d < 16, digit? 16 d.digitChar = some d := by decide
  exact digit?_eq_some (hsixteen d (Nat.lt_of_lt_of_le hd hbase)) hd

/-- A capital letter stands 32 characters before its small one. -/
theorem toNat_toLower (hfirst : 'A' ≤ c) (hlast : c ≤ 'Z') : c.toLower.toNat = c.toNat + 32 := by
  have hle : c.val.toNat ≤ 90 := UInt32.le_iff_toNat_le.1 hlast
  have hlower : c.toLower.toNat = (c.val + 32).toNat :=
    congrArg Char.toNat (dif_pos ⟨hfirst, hlast⟩)
  rw [hlower, UInt32.toNat_add]
  show (c.val.toNat + 32) % 4294967296 = c.val.toNat + 32
  omega

/-- A letter stands for the same digit in both cases. -/
theorem digit?_toLower (base : Nat) (c : Char) : digit? base c.toLower = digit? base c := by
  by_cases hupper : 'A' ≤ c ∧ c ≤ 'Z'
  · have hlower := toNat_toLower hupper.1 hupper.2
    have hle (a b : Char) : a ≤ b ↔ a.toNat ≤ b.toNat := UInt32.le_iff_toNat_le
    unfold digit?
    simp only [hle, hlower, Char.reduceToNat] at hupper ⊢
    have hnot : ¬ c.toNat + 32 ≤ 57 := by omega
    grind
  · have hsame : c.toLower = c := dif_neg hupper
    rw [hsame]

/-! ## Numerals -/

/-- The digits that are written for a number stand for it. -/
theorem digits_toDigits (base : Nat) (hpos : 1 < base) (hbase : base ≤ 16) (n : Nat) :
    Digits base (Nat.toDigits base n) n := by
  induction n using Nat.strongRecOn with
  | ind n ih =>
    by_cases hn : n < base
    · rw [Nat.toDigits_of_lt_base hn]
      exact .single (digit?_digitChar hbase hn)
    · have hle : base ≤ n := Nat.le_of_not_lt hn
      have hdiv : n / base < n := Nat.div_lt_self (by omega) hpos
      have hmod : n % base < base := Nat.mod_lt n (by omega)
      rw [Nat.toDigits_of_base_le hpos hle]
      have hsnoc := (ih (n / base) hdiv).snoc (digit?_digitChar hbase hmod)
      rwa [Nat.div_add_mod] at hsnoc

/-- A zero in front of a numeral makes no difference. -/
theorem Digits.zero_cons (hbase : 0 < base) (h : Digits base text n) :
    Digits base ('0' :: text) n := by
  have hzero : digit? base '0' = some 0 := digit?_eq_some rfl hbase
  induction h with
  | @single c d hd =>
    have hsnoc := (Digits.single hzero).snoc hd
    rwa [Nat.mul_zero, Nat.zero_add] at hsnoc
  | snoc _ hd ih => exact ih.snoc hd

/-- Zeros in front of a numeral make no difference. -/
theorem Digits.zeros (hbase : 0 < base) (zeros : Nat) (h : Digits base text n) :
    Digits base (List.replicate zeros '0' ++ text) n := by
  induction zeros with
  | zero => exact h
  | succ zeros ih => exact ih.zero_cons hbase

/-- A numeral with or without a sign is not empty. -/
theorem Signed.ne_nil (h : Signed base text n) : text ≠ [] := by
  cases h with
  | plain h => exact h.ne_nil
  | plus _ => exact List.cons_ne_nil _ _

/-- All characters of a numeral are digits, behind a plus sign perhaps. -/
theorem Signed.eq_plus_or_isSome_digit? (h : Signed base text n) :
    ∀ c ∈ text, c = '+' ∨ (digit? base c).isSome := by
  cases h with
  | plain h => exact fun c hc => .inr (h.isSome_digit? c hc)
  | plus h =>
    intro c hc
    exact (List.mem_cons.1 hc).imp_right (h.isSome_digit? c)

/-- Digits read the same in capital and in small letters. -/
theorem readDigits_map_toLower (base bound value : Nat) (text : List Char) :
    readDigits base bound value (text.map Char.toLower) = readDigits base bound value text := by
  induction text generalizing value with
  | nil => rfl
  | cons c rest ih =>
    rw [List.map_cons, readDigits, readDigits, digit?_toLower]
    simp only [ih]

/-- The letters of a numeral may be in either case. -/
theorem Digits.of_toLower (hbase : 0 < base) (h : Digits base (text.map Char.toLower) n) :
    Digits base text n := by
  have hread : readUnsigned base n (text.map Char.toLower) = .ok n :=
    (readUnsigned_eq_ok_iff hbase).2 ⟨h, Nat.le_refl n⟩
  have htext : text ≠ [] := by
    rintro rfl
    exact h.ne_nil rfl
  rw [readUnsigned_of_ne_nil h.ne_nil, readDigits_map_toLower,
    ← readUnsigned_of_ne_nil htext] at hread
  exact ((readUnsigned_eq_ok_iff hbase).1 hread).1

/-- Digits stand for one number. -/
theorem Digits.unique (hbase : 0 < base) (h : Digits base text n) (h' : Digits base text m) :
    n = m := by
  have hread := (readUnsigned_eq_ok_iff hbase).2 ⟨h, Nat.le_max_left n m⟩
  have hread' := (readUnsigned_eq_ok_iff hbase).2 ⟨h', Nat.le_max_right n m⟩
  exact Except.ok.inj (hread.symm.trans hread')

/-! ## What is written -/

/-- The digits that are written for a number are digits. -/
theorem isSome_digit?_of_mem_toDigits (hpos : 1 < base) (hbase : base ≤ 16)
    (h : c ∈ Nat.toDigits base n) : (digit? base c).isSome :=
  (digits_toDigits base hpos hbase n).isSome_digit? c h

/-- No sign stands in front of a natural number. -/
theorem minus_cons_ne_toDigits (n : Nat) (text : List Char) :
    '-' :: text ≠ Nat.toDigits 10 n := by
  intro h
  have hsign : (digit? 10 '-').isSome :=
    isSome_digit?_of_mem_toDigits (by decide) (by decide) (h ▸ List.mem_cons_self)
  exact absurd hsign (by decide)

/-- Different numbers are written with different digits. -/
theorem toDigits_injective (hpos : 1 < base) (hbase : base ≤ 16)
    (h : Nat.toDigits base n = Nat.toDigits base m) : n = m :=
  (digits_toDigits base hpos hbase n).unique (Nat.zero_lt_of_lt hpos)
    (h ▸ digits_toDigits base hpos hbase m)

end

end TaggedValues.Text.Numeral
