import TaggedValues.Log.Reading
import TaggedValues.Proofs.Text.Numeral

/-!
# Directives that are read

A text that spells a directive by its target and its level is read as that directive
(`Log.Directive.Spelled.read_eq`), and a list of such texts with commas between them as the
directives in their order (`Log.Directive.SpelledAll.readAll?_eq`). Nothing is lost at the ends,
where blanks would shift the parts: neither a target nor a level has a blank there.
-/

namespace TaggedValues.Log

open Text

section
variable {c : Char} {text level : List Char} {threshold : Option Level}

/-! ## Levels -/

/-- The character neither is blank nor divides directives. -/
def IsInner (c : Char) : Prop := ¬ isBlank c ∧ c ≠ ','

instance (c : Char) : Decidable (IsInner c) := inferInstanceAs (Decidable (_ ∧ _))

/-- The characters from `0` to `z` are inner ones. -/
theorem isInner_of_toNat (hlow : 0x30 ≤ c.toNat) (hhigh : c.toNat ≤ 0x7A) : IsInner c := by
  refine ⟨not_isBlank_of_toNat (by omega) (by omega), ?_⟩
  rintro rfl
  exact absurd hlow (by decide)

/-- The characters of a numeral neither are blank nor divide directives. -/
theorem isInner_of_signed {n : Nat} (h : Numeral.Signed 10 text n) : ∀ c ∈ text, IsInner c := by
  intro c hc
  obtain rfl | hdigit := h.eq_plus_or_isSome_digit? c hc
  · decide
  · have := Numeral.toNat_of_isSome_digit? (by decide) hdigit
    exact isInner_of_toNat this.1 (by omega)

/-- Nor are the characters of a text that becomes such a text in capitals. -/
theorem isInner_of_toUpper (h : IsInner c.toUpper) : IsInner c := by
  by_cases hlower : 'a' ≤ c ∧ c ≤ 'z'
  · have hle (a b : Char) : a ≤ b ↔ a.toNat ≤ b.toNat := UInt32.le_iff_toNat_le
    simp only [hle, Char.reduceToNat] at hlower
    exact isInner_of_toNat (by omega) (by omega)
  · have hsame : c.toUpper = c := dif_neg hlower
    rwa [hsame] at h

/-- A text that names a threshold has characters, none of which is blank or divides directives. -/
theorem isInner_of_threshold? (h : threshold? level = some threshold) :
    level ≠ [] ∧ ∀ c ∈ level, IsInner c := by
  unfold threshold? at h
  split at h
  · next n hread =>
    have hsigned := ((Numeral.read_eq_ok_iff (by decide) (by decide)).1 hread).1
    exact ⟨hsigned.ne_nil, isInner_of_signed hsigned⟩
  · have hnames : ∀ threshold ∈ thresholds, (thresholdName threshold).toList ≠ [] ∧
        (thresholdName threshold).toList.all (decide <| IsInner ·) = true := by decide
    obtain ⟨hne, hall⟩ := hnames threshold (List.mem_of_find?_eq_some h)
    have hname : (thresholdName threshold).toList = level.map Char.toUpper := by
      simpa using List.find?_some h
    rw [hname] at hne hall
    have hinner : ∀ c ∈ level.map Char.toUpper, IsInner c := by
      simpa only [List.all_eq_true, decide_eq_true_eq] using hall
    exact ⟨mt List.map_eq_nil_iff.2 hne, fun c hc =>
      isInner_of_toUpper (hinner _ (List.mem_map_of_mem hc))⟩

end

namespace Directive

section
variable {directive : Directive} {directives : List Directive} {text : List Char}

/-! ## Directives -/

/-- A spelled directive asks for no field. -/
theorem Spelled.field_eq_none (h : directive.Spelled text) : directive.field = none := by
  cases h
  rfl

/-- The text of a spelled directive has no comma. -/
theorem Spelled.comma_not_mem (h : directive.Spelled text) : ',' ∉ text := by
  cases h with
  | equal _ _ htarget hlevel =>
    have hinner := (isInner_of_threshold? hlevel).2
    intro hcomma
    obtain hcomma | hcomma := List.mem_append.1 hcomma
    · exact (htarget ',' hcomma).2.2 rfl
    · obtain hcomma | hcomma := List.mem_cons.1 hcomma
      · exact absurd hcomma (by decide)
      · exact (hinner ',' hcomma).2 rfl

/-- There is nothing to trim at the ends of a spelled directive. -/
theorem Spelled.trim_eq (h : directive.Spelled text) : trim text = text := by
  cases h with
  | @equal first target level threshold _ hblank _ hlevel =>
    obtain ⟨hne, hinner⟩ := isInner_of_threshold? hlevel
    refine trim_eq_self ?_ fun c hc => ?_
    · rintro c ⟨⟩
      simpa using hblank
    · have hlast : level.getLast? = some c := by
        rw [List.getLast?_append, List.getLast?_cons_of_ne_nil hne] at hc
        simpa [hne] using hc
      exact (hinner c (List.mem_of_getLast? hlast)).1

/-- A cut at the end of the front gives the front. -/
theorem cutPart_append (front back : List Char) :
    cutPart (front ++ back) 0 (byteLength front) = .ok front := by
  rw [cutPart, part?_append]
  rfl

/-- What is behind a cut at the end of the front is the back. -/
theorem cutTail_append (front back : List Char) :
    cutTail (front ++ back) (byteLength front) = .ok back := by
  rw [cutTail, tail?_append]
  rfl

/-- The level behind an equals sign is read as the threshold that it names. -/
theorem readThreshold_append {threshold : Option Level} (front : List Char) {level : List Char}
    (h : threshold? level = some threshold) :
    readThreshold (front ++ '=' :: level) (byteLength front) ('=' :: level) = .ok threshold := by
  have hcut : cutTail (front ++ '=' :: level) (byteLength front + 1) = .ok level := by
    have hcut := cutTail_append (front ++ ['=']) level
    rwa [byteLength_append, List.append_assoc] at hcut
  rw [readThreshold, hcut]
  cases level with
  | nil => exact absurd rfl (isInner_of_threshold? h).1
  | cons c rest =>
    show (threshold? (c :: rest)).elim (Except.error Misreading.passedOver) Except.ok = _
    rw [h]
    rfl

/-- A text that spells a directive is read as it. -/
theorem Spelled.read_eq (h : directive.Spelled text) : read text = .ok directive := by
  have htrim := h.trim_eq
  cases h with
  | @equal first target level threshold hfirst hblank htarget hlevel =>
    have hkept : ∀ c ∈ first :: target, decide (c ≠ '=' ∧ c ≠ '[') = true := fun c hc =>
      decide_eq_true ⟨(htarget c hc).2.1, (htarget c hc).1⟩
    have htake : (first :: target ++ '=' :: level).takeWhile (fun c => c ≠ '=' ∧ c ≠ '[') =
        first :: target := by
      rw [List.takeWhile_append_of_pos hkept]
      exact List.append_nil _
    have hhead : ¬ (first :: target ++ '=' :: level).head?.all (!isBeginning ·) := by
      simp [hfirst]
    unfold read
    simp only [htrim, htake, if_neg hhead, List.drop_left, cutPart_append]
    show (do
      let threshold ← readThreshold (first :: target ++ '=' :: level) _ ('=' :: level)
      return _) = _
    rw [readThreshold_append _ hlevel]
    rfl

/-- Texts that spell directives are read as these, in their order. -/
theorem SpelledAll.readAll?_eq (h : SpelledAll directives text) :
    readAll? (text.splitOn ',') = some directives := by
  induction h with
  | single hspelled =>
    rw [List.splitOn_eq_singleton hspelled.comma_not_mem, readAll?, hspelled.read_eq]
    rfl
  | cons hspelled _ ih =>
    rw [List.splitOn_append_cons_self, List.splitOn_eq_singleton hspelled.comma_not_mem,
      List.singleton_append, readAll?, hspelled.read_eq]
    dsimp only
    rw [ih]
    rfl

/-- Spelled directives ask for no fields. -/
theorem SpelledAll.field_eq_none (h : SpelledAll directives text) :
    ∀ directive ∈ directives, directive.field = none := by
  induction h with
  | single hspelled => simpa using hspelled.field_eq_none
  | cons hspelled _ ih => exact List.forall_mem_cons.2 ⟨hspelled.field_eq_none, ih⟩

end

end Directive

end TaggedValues.Log
