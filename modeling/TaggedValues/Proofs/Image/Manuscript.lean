import TaggedValues.Image.Manuscript
import TaggedValues.Proofs.Image.Grammar
import TaggedValues.Proofs.Text.Numeral

/-!
# Reading what was written

Each way to write a word spells the word (`Word.Spelling.spelled`), and spacers are gaps between
words (`Image.gap_flatMap`), so a manuscript lays out the words of its image
(`Image.Manuscript.layout`). Hence an image is read back from every text that was written of it
(`Image.Manuscript.ofText_source`).
-/

namespace TaggedValues

open Text Numeral

namespace Word

/-- A word is made of the number of its bits. -/
theorem ofNat_toNat_bits (word : Word) : (⟨UInt32.ofNat word.bits.toNat⟩ : Word) = word := by
  rw [UInt32.ofNat_toNat]

/-- The bits of a word are no larger a number than a token may denote. -/
theorem toNat_bits_le (word : Word) : word.bits.toNat ≤ maxBits :=
  Nat.le_of_lt_succ word.bits.toNat_lt

/-- Each way to write a word spells it. -/
theorem Spelling.spelled {word : Word} (spelling : word.Spelling) :
    Spelled spelling.text word := by
  cases spelling with
  | decimal zeros =>
    have hdigits := (digits_toDigits 10 (by decide) (by decide) word.bits.toNat).zeros
      (by decide) zeros
    have hspelled := Spelled.decimal (.plain hdigits) word.toNat_bits_le
    rwa [ofNat_toNat_bits] at hspelled
  | hexadecimal mark zeros digits hmark hlower =>
    have hdigits := digits_toDigits 16 (by decide) (by decide) word.bits.toNat
    rw [← hlower] at hdigits
    have hspelled := Spelled.hexadecimal hmark
      (.plain ((hdigits.of_toLower (by decide)).zeros (by decide) zeros)) word.toNat_bits_le
    rwa [ofNat_toNat_bits] at hspelled
  | negative zeros hsign =>
    have hle := word.toNat_bits_le
    have hdigits := (digits_toDigits 10 (by decide) (by decide)
      (maxBits + 1 - word.bits.toNat)).zeros (by decide) zeros
    have hnegated : maxBits + 1 - word.bits.toNat ≤ maxNegated := by
      unfold maxBits maxNegated at *
      omega
    have hspelled := Spelled.negative hdigits hnegated
    rwa [Nat.sub_sub_self (Nat.le_succ_of_le hle), ofNat_toNat_bits] at hspelled

end Word

namespace Image

/-- Spacers are a gap. -/
theorem gap_flatMap (spacers : List Spacer) : Gap (spacers.flatMap Spacer.text) := by
  induction spacers with
  | nil => exact .nil
  | cons spacer rest ih =>
    rw [List.flatMap_cons]
    cases spacer with
    | blank c hblank => exact .blank hblank ih
    | comment text htext =>
      rw [Spacer.text, List.append_assoc]
      exact .comment htext ih

section
variable {spacers : List Spacer} {rest : List Char} {words : List Word}

/-- A spacer ends the token in front of it. -/
theorem endsToken_spacers (h : spacers ≠ []) (rest : List Char) :
    EndsToken (spacers.flatMap Spacer.text ++ rest) := by
  cases spacers with
  | nil => exact absurd rfl h
  | cons spacer more =>
    rw [List.flatMap_cons]
    cases spacer with
    | blank c hblank => simp [Spacer.text, EndsToken, hblank]
    | comment text htext => simp [Spacer.text, EndsToken]

/-- An entry lays out its word. -/
theorem Entry.layout (entry : Entry) (hends : EndsToken rest) (h : Layout rest words) :
    Layout (entry.text ++ rest) (entry.word :: words) :=
  .word (gap_flatMap entry.spacers) entry.spelling.spelled hends h

/-- Entries that are set off lay out their words and end the token in front of them. -/
theorem layout_entries (entries : List Entry) (hspaced : ∀ entry ∈ entries, entry.spacers ≠ [])
    (hends : EndsToken rest) (h : Layout rest words) :
    EndsToken (entries.flatMap Entry.text ++ rest) ∧
      Layout (entries.flatMap Entry.text ++ rest) (entries.map Entry.word ++ words) := by
  induction entries with
  | nil => exact ⟨hends, h⟩
  | cons entry more ih =>
    obtain ⟨hentry, hmore⟩ := List.forall_mem_cons.1 hspaced
    obtain ⟨hends', hlayout⟩ := ih hmore
    rw [List.flatMap_cons, List.append_assoc]
    refine ⟨?_, entry.layout hends' hlayout⟩
    rw [Entry.text, List.append_assoc]
    exact endsToken_spacers hentry _

end

namespace Manuscript

variable (manuscript : Manuscript)

/-- What stands behind the last word lays out no more words. -/
theorem layout_ending : EndsToken manuscript.ending ∧ Layout manuscript.ending [] := by
  have hgap := gap_flatMap manuscript.trailer
  have hends (rest : List Char) (hrest : EndsToken rest) :
      EndsToken (manuscript.trailer.flatMap Spacer.text ++ rest) := by
    by_cases htrailer : manuscript.trailer = []
    · rwa [htrailer]
    · exact endsToken_spacers htrailer rest
  unfold ending
  cases manuscript.remark with
  | none =>
    refine ⟨hends [] nofun, ?_⟩
    rw [List.append_nil]
    exact .gap hgap
  | some remark => exact ⟨hends _ (by simp [EndsToken]), .comment hgap remark.property⟩

/-- A manuscript lays out the words of its image. -/
theorem layout :
    Layout manuscript.source.toList (manuscript.image.result :: manuscript.image.heap) := by
  obtain ⟨hends, hending⟩ := manuscript.layout_ending
  obtain ⟨hends', hheap⟩ := layout_entries manuscript.heap manuscript.spaced hends hending
  rw [List.append_nil] at hheap
  rw [source, String.toList_ofList]
  exact manuscript.result.layout hends' hheap

/-- An image is read back from the text it was written as, whatever the spelling of its words and
whatever stands between them. -/
theorem ofText_source : ofText manuscript.source = .ok manuscript.image :=
  ofText_eq_ok_iff.2 manuscript.layout

end Manuscript

end Image

end TaggedValues
