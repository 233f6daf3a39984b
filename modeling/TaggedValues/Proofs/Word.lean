import TaggedValues.Word

/-!
# Words that refer to pairs

Pairs begin at multiples of 8, so behind the offset of a pair there is always another offset
(`toNat_succ_of_aligned`). The tests of `Word.kind` overlap, but a word with the tag of a pair meets
none of those in front of the test for pairs. So the words that refer to pairs are those right above
a multiple of 8 (`Word.kind_eq_pair_iff`).
-/

namespace TaggedValues

section
variable {offset other : UInt32}

/-- An aligned offset is a multiple of eight as a number. -/
theorem toNat_mod_of_aligned (h : offset % 8 = 0) : offset.toNat % 8 = 0 := by
  rw [← UInt32.toNat_inj, UInt32.toNat_mod] at h
  exact h

/-- The offset behind a multiple of 8 does not wrap around. -/
theorem toNat_succ_of_aligned (h : offset % 8 = 0) : (offset + 1).toNat = offset.toNat + 1 := by
  have hmod := toNat_mod_of_aligned h
  have hlt := offset.toNat_lt
  rw [UInt32.toNat_add]
  show (offset.toNat + 1) % 4294967296 = offset.toNat + 1
  omega

/-- The words of pairs at different offsets are different. -/
theorem ne_of_aligned (h : offset % 8 = 0) (h' : other % 8 = 0) (hne : other ≠ offset) :
    other ≠ offset + 1 ∧ other + 1 ≠ offset ∧ other + 1 ≠ offset + 1 := by
  have hmod := toNat_mod_of_aligned h
  have hmod' := toNat_mod_of_aligned h'
  have hsucc := toNat_succ_of_aligned h
  have hsucc' := toNat_succ_of_aligned h'
  simp only [ne_eq, ← UInt32.toNat_inj] at hne ⊢
  omega

end

namespace Word

section
variable {word : Word} {offset : UInt32}

/-- The tag of pairs, read off the number of the bits. -/
theorem tag_eq_one_iff : word.tag = 1 ↔ word.bits.toNat % 8 = 1 := by
  rw [tag, ← UInt32.toNat_inj, UInt32.toNat_mod]
  rfl

/-- A word with the tag of a pair refers to the pair right below its bits. -/
theorem kind_of_tag (h : word.tag = 1) : word.kind = .pair (word.bits - 1) := by
  have htag := tag_eq_one_iff.1 h
  have hint : ¬ word.bits % 2 = 0 := by
    rw [← UInt32.toNat_inj, UInt32.toNat_mod]
    show ¬ word.bits.toNat % 2 = 0
    omega
  have hclosure : ¬ word.tag = 5 := by
    rw [h]
    decide
  have hbool (bits : UInt32) (hbits : bits.toNat % 8 = 7) : ¬ word.bits = bits := by
    rintro rfl
    omega
  rw [kind, if_neg hint, if_neg hclosure, if_neg (hbool _ rfl), if_neg (hbool _ rfl), if_pos h]

/-- Only a word with the tag of a pair refers to a pair. -/
theorem tag_of_kind (h : word.kind = .pair offset) : word.tag = 1 ∧ offset = word.bits - 1 := by
  unfold kind at h
  repeat' split at h
  all_goals cases h
  next htag => exact ⟨htag, rfl⟩

/-- A word refers to a pair when the offset, a multiple of 8, lies right below its bits. -/
theorem kind_eq_pair_iff :
    word.kind = .pair offset ↔ offset.toNat % 8 = 0 ∧ word.bits.toNat = offset.toNat + 1 := by
  have hone : (1 : UInt32).toNat = 1 := rfl
  constructor
  · intro h
    obtain ⟨htag, rfl⟩ := tag_of_kind h
    have htag := tag_eq_one_iff.1 htag
    have hle : (1 : UInt32) ≤ word.bits := by
      rw [UInt32.le_iff_toNat_le]
      omega
    rw [UInt32.toNat_sub_of_le _ _ hle]
    omega
  · rintro ⟨hoffset, hbits⟩
    have hle : (1 : UInt32) ≤ word.bits := by
      rw [UInt32.le_iff_toNat_le]
      omega
    rw [kind_of_tag (tag_eq_one_iff.2 (by omega))]
    congr 1
    rw [← UInt32.toNat_inj, UInt32.toNat_sub_of_le _ _ hle]
    omega

/-- The offset of a pair is a multiple of 8. -/
theorem aligned_of_kind (h : word.kind = .pair offset) : offset % 8 = 0 := by
  rw [← UInt32.toNat_inj, UInt32.toNat_mod]
  exact (kind_eq_pair_iff.1 h).1

/-- The word right above a multiple of 8 refers to the pair there. -/
theorem kind_ofOffset (h : offset % 8 = 0) : (⟨offset + 1⟩ : Word).kind = .pair offset :=
  kind_eq_pair_iff.2 ⟨toNat_mod_of_aligned h, toNat_succ_of_aligned h⟩

end

end Word

end TaggedValues
