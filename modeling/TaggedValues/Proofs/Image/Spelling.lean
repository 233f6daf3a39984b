import TaggedValues.Image.Grammar
import TaggedValues.Proofs.Text.Numeral

/-!
# The spellings of a word

A token is read as a word when it spells the word (`Word.ofToken?_eq_some_iff`): the three ways to
write a word exclude each other, as no decimal numeral has an `x` or a minus sign in it. The
characters of a spelling are marks, signs and digits, and none of these ends a token
(`Word.Spelled.solid`).
-/

namespace TaggedValues

open Text

/-! ## Characters -/

namespace Text

section
variable {base : Nat} {c : Char}

/-- The character does not end the token it stands in. -/
def Solid (c : Char) : Prop := ¬ isBlank c ∧ c ≠ '#'

instance (c : Char) : Decidable (Solid c) := inferInstanceAs (Decidable (_ ∧ _))

/-- No character from `0` to `f` ends a token. -/
theorem solid_of_toNat (hlow : 0x30 ≤ c.toNat) (hhigh : c.toNat ≤ 0x66) : Solid c := by
  refine ⟨not_isBlank_of_toNat (by omega) (by omega), ?_⟩
  rintro rfl
  exact absurd hlow (by decide)

/-- No digit ends a token. -/
theorem Numeral.solid_of_isSome_digit? (hbase : base ≤ 16) (h : (digit? base c).isSome) :
    Solid c :=
  have ⟨hlow, hhigh⟩ := toNat_of_isSome_digit? hbase h
  solid_of_toNat hlow hhigh

end

end Text

namespace Word

open Numeral

section
variable {token text : List Char} {word : Word}

/-- The negative of a small number is its two's complement. -/
theorem neg_ofNat_eq {n : Nat} (h : n ≤ maxNegated) :
    -UInt32.ofNat n = UInt32.ofNat (maxBits + 1 - n) := by
  have hlt : n < UInt32.size := Nat.lt_of_le_of_lt h (by decide)
  rw [← UInt32.toNat_inj, UInt32.toNat_neg, UInt32.toNat_ofNat_of_lt' hlt, UInt32.toNat_ofNat']
  rfl

/-! ## The three ways to write a word -/

/-- No decimal numeral begins with a zero and a letter. -/
theorem not_signed_mark {mark : Char} {n : Nat} (hmark : mark = 'x' ∨ mark = 'X') :
    ¬ Signed 10 ('0' :: mark :: text) n := by
  intro h
  have hdigit := h.eq_plus_or_isSome_digit? mark (.tail _ (.head _))
  rcases hmark with rfl | rfl <;> exact absurd hdigit (by decide)

/-- No decimal numeral begins with a minus sign. -/
theorem not_signed_minus {n : Nat} : ¬ Signed 10 ('-' :: text) n :=
  fun h => absurd (h.eq_plus_or_isSome_digit? '-' (.head _)) (by decide)

/-- A token with the mark of hexadecimal digits spells the number behind the mark. -/
theorem spelled_mark_iff {mark : Char} (hmark : mark = 'x' ∨ mark = 'X') :
    Spelled ('0' :: mark :: text) word ↔
      ∃ n, (Signed 16 text n ∧ n ≤ maxBits) ∧ ⟨UInt32.ofNat n⟩ = word := by
  constructor
  · intro h
    cases h with
    | hexadecimal _ hsigned hle => exact ⟨_, ⟨hsigned, hle⟩, rfl⟩
    | decimal hsigned _ => exact absurd hsigned (not_signed_mark hmark)
  · rintro ⟨n, ⟨hsigned, hle⟩, rfl⟩
    exact .hexadecimal hmark hsigned hle

/-- A token with a minus sign spells the negation of the number behind the sign. -/
theorem spelled_minus_iff :
    Spelled ('-' :: text) word ↔
      ∃ n, (Digits 10 text n ∧ n ≤ maxNegated) ∧ ⟨-UInt32.ofNat n⟩ = word := by
  constructor
  · intro h
    cases h with
    | negative hdigits hle => exact ⟨_, ⟨hdigits, hle⟩, by rw [neg_ofNat_eq hle]⟩
    | decimal hsigned _ => exact absurd hsigned not_signed_minus
  · rintro ⟨n, ⟨hdigits, hle⟩, rfl⟩
    rw [neg_ofNat_eq hle]
    exact .negative hdigits hle

/-- Every other token spells its decimal number. -/
theorem spelled_iff_of_not_mark (hmark : ∀ rest, token ≠ '0' :: 'x' :: rest)
    (hmark' : ∀ rest, token ≠ '0' :: 'X' :: rest) (hminus : ∀ rest, token ≠ '-' :: rest) :
    Spelled token word ↔
      ∃ n, (Signed 10 token n ∧ n ≤ maxBits) ∧ ⟨UInt32.ofNat n⟩ = word := by
  constructor
  · intro h
    cases h with
    | hexadecimal hx _ _ =>
      rcases hx with rfl | rfl
      · exact absurd rfl (hmark _)
      · exact absurd rfl (hmark' _)
    | negative _ _ => exact absurd rfl (hminus _)
    | decimal hsigned hle => exact ⟨_, ⟨hsigned, hle⟩, rfl⟩
  · rintro ⟨n, ⟨hsigned, hle⟩, rfl⟩
    exact .decimal hsigned hle

/-- The word made of what a reader accepts. -/
theorem map_toOption_eq_some_iff {result : Except Numeral.Fault Nat} {p : Nat → Prop}
    {make : Nat → Word} (h : ∀ n, result = .ok n ↔ p n) :
    result.toOption.map make = some word ↔ ∃ n, p n ∧ make n = word := by
  simp only [Option.map_eq_some_iff, ← h]
  cases result <;> simp [Except.toOption]

/-- The words that tokens are read as are those they spell. -/
theorem ofToken?_eq_some_iff : ofToken? token = some word ↔ Spelled token word := by
  have hread (base bound : Nat) (hpos : 0 < base) (hbase : base ≤ 16) (text : List Char) :
      ∀ n, Numeral.read base bound text = .ok n ↔ Signed base text n ∧ n ≤ bound :=
    fun _ => read_eq_ok_iff hpos hbase
  unfold ofToken?
  split
  · rw [spelled_mark_iff (.inl rfl)]
    exact map_toOption_eq_some_iff (hread 16 _ (by decide) (by decide) _)
  · rw [spelled_mark_iff (.inr rfl)]
    exact map_toOption_eq_some_iff (hread 16 _ (by decide) (by decide) _)
  · rw [spelled_minus_iff]
    exact map_toOption_eq_some_iff fun n => readUnsigned_eq_ok_iff (by decide)
  · next hmark hmark' hminus =>
    rw [spelled_iff_of_not_mark hmark hmark' hminus]
    exact map_toOption_eq_some_iff (hread 10 _ (by decide) (by decide) _)

/-! ## Tokens -/

/-- A spelling has characters, and none of them ends a token. -/
theorem Spelled.solid (h : Spelled token word) : token ≠ [] ∧ ∀ c ∈ token, Solid c := by
  have hsigned {base n : Nat} {text : List Char} (hbase : base ≤ 16) (h : Signed base text n) :
      ∀ c ∈ text, Solid c := fun c hc =>
    (h.eq_plus_or_isSome_digit? c hc).elim (fun h => h ▸ by decide)
      (solid_of_isSome_digit? hbase)
  cases h with
  | @hexadecimal mark _ _ hmark hdigits _ =>
    have hsolid : Solid mark := by rcases hmark with rfl | rfl <;> decide
    exact ⟨List.cons_ne_nil _ _, List.forall_mem_cons.2
      ⟨by decide, List.forall_mem_cons.2 ⟨hsolid, hsigned (Nat.le_refl 16) hdigits⟩⟩⟩
  | negative hdigits _ =>
    exact ⟨List.cons_ne_nil _ _, List.forall_mem_cons.2
      ⟨by decide, hsigned (by decide) (.plain hdigits)⟩⟩
  | decimal hdigits _ => exact ⟨hdigits.ne_nil, hsigned (by decide) hdigits⟩

end

end Word

end TaggedValues
