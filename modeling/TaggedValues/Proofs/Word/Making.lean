import Mathlib.Algebra.Group.Int.Defs
import Mathlib.Algebra.Group.Nat.Defs
import TaggedValues.Proofs.Word

/-!
# Making words and reading them

The tests of `Word.kind` overlap, and only their order keeps the kinds apart. `Word.kind_cases` says
once which words get through to which of them. What is made is read back: a truth value, a closure
and the offset of a pair as they are, and of an integer what is left in 31 bits (`Word.kind_ofInt`).
What is read was made: a word of each kind is the one that is made of what it stands for, so the
words that stand for nothing are those that nothing makes (`Word.kind_undoes_making`).
-/

namespace TaggedValues

namespace Word

/-- What is left of an integer in 31 bits: the low ones, the highest of which is the sign. -/
def truncated (value : Int32) : Int32 :=
  Int32.ofBitVec ((value.toBitVec.setWidth 31).signExtend 32)

section
variable {word : Word} {value : Int32} {offset payload bits : UInt32}

/-! ## Integers -/

/-- Truncation to 31 bits is the balanced remainder. -/
theorem toInt_truncated (value : Int32) : (truncated value).toInt = value.toInt.bmod (2 ^ 31) := by
  rw [truncated, Int32.toInt_ofBitVec, BitVec.toInt_signExtend, BitVec.toInt_setWidth,
    Int.bmod_bmod_of_dvd (by decide), ← Int32.toInt_toBitVec, BitVec.toInt_eq_toNat_bmod]
  exact (Int.bmod_bmod_of_dvd (by decide)).symm

/-- The integers of 31 bits are left as they are, and no others. -/
theorem truncated_eq_self_iff :
    truncated value = value ↔ -2 ^ 30 ≤ value.toInt ∧ value.toInt < 2 ^ 30 := by
  rw [← Int32.toInt_inj, toInt_truncated, Int.bmod_def]
  have hlow := value.le_toInt
  have hhigh := value.toInt_lt
  omega

/-- An integer is shifted up by one bit. -/
theorem toBitVec_bits_ofInt (value : Int32) : (ofInt value).bits.toBitVec = value.toBitVec <<< 1 :=
  rfl

/-- Shifting a signed word down keeps its sign. -/
theorem toBitVec_half (bits : UInt32) :
    (bits.toInt32 >>> 1).toBitVec = bits.toBitVec.sshiftRight 1 :=
  rfl

/-- The lowest bit of an integer's word is zero. -/
theorem bits_ofInt_mod_two (value : Int32) : (ofInt value).bits % 2 = 0 := by
  have hmod : (value.toUInt32.toNat <<< 1) % 4294967296 % 2 = 0 := by
    rw [Nat.shiftLeft_eq]
    omega
  rw [← UInt32.toNat_inj, UInt32.toNat_mod, ofInt, UInt32.toNat_shiftLeft]
  exact hmod

/-- The word of an integer stands for what is left of it in 31 bits. -/
theorem kind_ofInt (value : Int32) : (ofInt value).kind = .int (truncated value) := by
  rw [kind, if_pos (bits_ofInt_mod_two value)]
  congr 1
  rw [← Int32.toBitVec_inj, toBitVec_half, toBitVec_bits_ofInt, truncated, Int32.toBitVec_ofBitVec]
  ext i hi
  rw [BitVec.getElem_sshiftRight, BitVec.getElem_signExtend]
  -- the sign of the whole word is the highest of the bits that are left
  by_cases hlast : i < 31
  · have hnext : 1 + i < 32 := by omega
    simp [hlast, hnext, BitVec.getLsbD_eq_getElem hi]
  · have hnext : ¬ 1 + i < 32 := by omega
    simp [hlast, hnext, BitVec.msb_eq_getLsbD_last]

/-- An even word is that of the integer it stands for: the bit that the shift to the right drops is
the one that the shift to the left puts back. -/
theorem ofInt_half (h : word.bits % 2 = 0) : ofInt (word.bits.toInt32 >>> 1) = word := by
  have heven : word.bits.toNat % 2 = 0 := by
    rw [← UInt32.toNat_inj, UInt32.toNat_mod] at h
    exact h
  have hlow : word.bits.toBitVec[0] = false := by
    rw [BitVec.getElem_eq_testBit_toNat, Nat.testBit_zero, UInt32.toNat_toBitVec, heven]
    rfl
  rw [Word.mk.injEq, ← UInt32.toBitVec_inj, toBitVec_bits_ofInt, toBitVec_half]
  ext i hi
  rw [BitVec.getElem_shiftLeft]
  cases i with
  | zero =>
    rw [hlow]
    rfl
  | succ i => simp [BitVec.getElem_sshiftRight, Nat.add_comm 1 i, hi]

/-! ## Closures, truth values and pairs -/

/-- The bits of a closure as a number: the payload above the tag. -/
theorem toNat_bits_ofClosure (payload : UInt32) :
    (ofClosure payload).bits.toNat = payload.toNat * 8 % 4294967296 + 5 := by
  have hshift : (payload <<< 3).toNat = payload.toNat * 8 % 4294967296 := by
    rw [UInt32.toNat_shiftLeft, Nat.shiftLeft_eq]
    rfl
  rw [ofClosure, UInt32.toNat_add, hshift]
  show (payload.toNat * 8 % 4294967296 + 5) % 4294967296 = _
  omega

/-- The tag of closures, read off the number of the bits. -/
theorem tag_eq_five_iff : word.tag = 5 ↔ word.bits.toNat % 8 = 5 := by
  rw [tag, ← UInt32.toNat_inj, UInt32.toNat_mod]
  rfl

/-- A word with the tag of a closure is made of the bits above the tag. -/
theorem exists_eq_ofClosure_iff : (∃ payload, word = ofClosure payload) ↔ word.tag = 5 := by
  rw [tag_eq_five_iff]
  constructor
  · rintro ⟨payload, rfl⟩
    rw [toNat_bits_ofClosure]
    omega
  · intro h
    refine ⟨word.bits >>> 3, ?_⟩
    have hlt := word.bits.toNat_lt
    have hpayload : (word.bits >>> 3).toNat = word.bits.toNat / 8 := by
      rw [UInt32.toNat_shiftRight, Nat.shiftRight_eq_div_pow]
      rfl
    rw [Word.mk.injEq, ← UInt32.toNat_inj, toNat_bits_ofClosure, hpayload]
    omega

/-- Both truth values end in three bits that no other kind has as its tag. -/
theorem kind_ofBool (value : Bool) : (ofBool value).kind = .bool value := by
  cases value <;> rfl

/-- A closure is classified as one, whatever its payload. -/
theorem kind_ofClosure (payload : UInt32) : (ofClosure payload).kind = .closure := by
  have htag : (ofClosure payload).tag = 5 := exists_eq_ofClosure_iff.1 ⟨payload, rfl⟩
  have hodd : ¬ (ofClosure payload).bits % 2 = 0 := by
    have hmod := tag_eq_five_iff.1 htag
    rw [← UInt32.toNat_inj, UInt32.toNat_mod]
    show ¬ (ofClosure payload).bits.toNat % 2 = 0
    omega
  rw [kind, if_neg hodd, if_pos htag]

/-- Alignment of an offset is divisibility of its number by eight. -/
theorem aligned_iff : offset % 8 = 0 ↔ offset.toNat % 8 = 0 := by
  rw [← UInt32.toNat_inj, UInt32.toNat_mod]
  rfl

/-- A pair's word exists for the aligned offsets and no others. -/
theorem exists_ofPair?_iff : (∃ word, ofPair? offset = some word) ↔ offset.toNat % 8 = 0 := by
  rw [← aligned_iff, ofPair?]
  split <;> simp_all

/-- The word that is made for an offset is the one that refers to the pair there. -/
theorem ofPair?_eq_some_iff : ofPair? offset = some word ↔ word.kind = .pair offset := by
  rw [ofPair?, Option.ite_none_right_eq_some, Option.some.injEq]
  constructor
  · rintro ⟨haligned, rfl⟩
    exact kind_ofOffset haligned
  · intro hkind
    have haligned := aligned_of_kind hkind
    refine ⟨haligned, ?_⟩
    rw [Word.mk.injEq, ← UInt32.toNat_inj, toNat_succ_of_aligned haligned,
      (kind_eq_pair_iff.1 hkind).2]

/-! ## All words -/

/-- Which words stand for what. -/
theorem kind_cases (word : Word) :
    (word.bits % 2 = 0 ∧ word.kind = .int (word.bits.toInt32 >>> 1)) ∨
      (word.tag = 5 ∧ word.kind = .closure) ∨
      (∃ value, word = ofBool value ∧ word.kind = .bool value) ∨
      (word.tag = 1 ∧ word.kind = .pair (word.bits - 1)) ∨
      word.kind = .invalid word.bits := by
  unfold kind
  split
  · next h => exact .inl ⟨h, rfl⟩
  · split
    · next h => exact .inr (.inl ⟨h, rfl⟩)
    · split
      · next h => exact .inr (.inr (.inl ⟨true, congrArg Word.mk h, rfl⟩))
      · split
        · next h => exact .inr (.inr (.inl ⟨false, congrArg Word.mk h, rfl⟩))
        · split
          · next h => exact .inr (.inr (.inr (.inl ⟨h, rfl⟩)))
          · exact .inr (.inr (.inr (.inr rfl)))

/-- The word is one of those that are made. -/
def Made (word : Word) : Prop :=
  (∃ value, word = ofInt value) ∨ (∃ offset, ofPair? offset = some word) ∨
    (∃ payload, word = ofClosure payload) ∨ ∃ value, word = ofBool value

/-- The word is made of what the kind says it stands for. One that stands for nothing is not made,
and has the bits that the kind says. -/
def Kind.Makes : Kind → Word → Prop
  | .int value, word => word = ofInt value
  | .closure, word => ∃ payload, word = ofClosure payload
  | .bool value, word => word = ofBool value
  | .pair offset, word => 1 ≤ word.bits ∧ ofPair? offset = some word
  | .invalid bits, word => bits = word.bits ∧ ¬ word.Made

/-- A word that is made stands for something. -/
theorem Made.kind_ne_invalid (h : word.Made) : word.kind ≠ .invalid bits := by
  rcases h with ⟨value, rfl⟩ | ⟨offset, h⟩ | ⟨payload, rfl⟩ | ⟨value, rfl⟩
  · rw [kind_ofInt]
    nofun
  · rw [ofPair?_eq_some_iff.1 h]
    nofun
  · rw [kind_ofClosure]
    nofun
  · rw [kind_ofBool]
    nofun

/-- What is read was made. -/
theorem kind_makes (word : Word) : word.kind.Makes word := by
  rcases word.kind_cases with ⟨heven, h⟩ | ⟨htag, h⟩ | ⟨value, hword, h⟩ | ⟨htag, h⟩ | h
  · rw [h]
    exact (ofInt_half heven).symm
  · rw [h]
    exact exists_eq_ofClosure_iff.2 htag
  · rw [h]
    exact hword
  · have hle : (1 : UInt32) ≤ word.bits := by
      rw [UInt32.le_iff_toNat_le, (kind_eq_pair_iff.1 h).2]
      exact Nat.le_add_left ..
    rw [h]
    exact ⟨hle, ofPair?_eq_some_iff.2 h⟩
  · rw [h]
    exact ⟨rfl, fun hmade => hmade.kind_ne_invalid h⟩

/-- Reading a word and making one undo each other over the whole format. What is made is read back:
an integer in its low 31 bits, which are all of it when it has no more, and a pair at every multiple
of 8. What is read was made, and a word that stands for nothing is none of those that are made. -/
theorem kind_undoes_making :
    (∀ value : Int32, (ofInt value).kind = .int (truncated value) ∧
      ((ofInt value).kind = .int value ↔ -2 ^ 30 ≤ value.toInt ∧ value.toInt < 2 ^ 30)) ∧
    (∀ offset : UInt32, ((∃ word, ofPair? offset = some word) ↔ offset.toNat % 8 = 0) ∧
      ∀ word, ofPair? offset = some word ↔ word.kind = .pair offset) ∧
    (∀ payload, (ofClosure payload).kind = .closure) ∧
    (∀ value, (ofBool value).kind = .bool value) ∧
    ∀ word : Word, word.kind.Makes word := by
  refine ⟨fun value => ⟨kind_ofInt value, ?_⟩, fun offset => ⟨exists_ofPair?_iff, ?_⟩,
    kind_ofClosure, kind_ofBool, kind_makes⟩
  · rw [kind_ofInt, Kind.int.injEq, truncated_eq_self_iff]
  · intro word
    exact ofPair?_eq_some_iff

/-- The least integer of 31 bits has the same word as one that has more. -/
example : (ofInt 0x40000000).kind = .int (-0x40000000) := by decide

end

end Word

end TaggedValues
