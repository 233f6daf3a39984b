import TaggedValues.Proofs.Image.Layout

/-!
# What is read is laid out

A scanner that is not stopped has read text that lays out the words it found. The characters of an
open token and those of an open comment are still to be placed (`Scanner.Pending`); what ends the
token places it in front of whatever the rest of the text lays out (`Scanner.layout_of_close`). So
the texts that are read as an image are those that lay out its words, and no others
(`Image.words_eq_ok_iff`).
-/

namespace TaggedValues

open Text

namespace Image

section
variable {gap rest : List Char} {words : List Word}

/-- Gaps join to a gap. -/
theorem Gap.append (h : Gap gap) (h' : Gap rest) : Gap (gap ++ rest) := by
  induction h with
  | nil => exact h'
  | blank hblank _ ih => exact .blank hblank ih
  | @comment text _ htext _ ih =>
    rw [List.append_assoc, List.cons_append]
    exact .comment htext ih

/-- A gap in front of a text lays out nothing more. -/
theorem Gap.layout (h : Gap gap) (h' : Layout rest words) : Layout (gap ++ rest) words := by
  cases h' with
  | gap hgap => exact .gap (h.append hgap)
  | @comment gap' text hgap htext =>
    rw [← List.append_assoc]
    exact .comment (h.append hgap) htext
  | @word gap' token rest word words hgap htoken hends hrest =>
    rw [← List.append_assoc, ← List.append_assoc]
    exact .word (h.append hgap) htoken hends hrest

end

end Image

namespace Scanner

/-- The scanner is behind the text, which it has not placed yet: the characters of the open token,
or those of the open comment. -/
inductive Pending (scanner : Scanner) : List Char → Prop where
  | token : scanner.inComment = false → Pending scanner scanner.token.reverse
  | comment {text : List Char} :
    scanner.inComment = true → scanner.token = [] → '\n' ∉ text → Pending scanner ('#' :: text)

section
variable {scanner scanner' : Scanner} {rest pending : List Char} {words : List Word}

/-- A token that was ended without a fault stands in front of what its end lays out. -/
theorem layout_of_close (h : scanner.close = .ok scanner') (hends : Image.EndsToken rest)
    (hrest : Image.Layout rest words) :
    ∃ words', Image.Layout (scanner.token.reverse ++ rest) words' ∧
      words'.reverse ++ scanner.words = words.reverse ++ scanner'.words := by
  unfold close at h
  split at h
  · next htoken =>
    cases h
    rw [htoken]
    exact ⟨words, hrest, rfl⟩
  · split at h
    · next word hword =>
      cases h
      have hspelled := Word.ofToken?_eq_some_iff.1 hword
      refine ⟨word :: words, .word .nil hspelled hends hrest, ?_⟩
      rw [List.reverse_cons, List.append_assoc]
      rfl
    · cases h

/-- A character that ends the token comes with what it lays out itself. -/
theorem layout_of_end {c : Char} {next : Scanner → Scanner}
    (hread : scanner.read c = next <$> scanner.close) (hends : Image.EndsToken (c :: rest))
    (h : (c :: rest).foldlM read scanner >>= close = .ok scanner')
    (hrest : ∀ closed : Scanner, closed.token = [] → closed.inComment = scanner.inComment →
      rest.foldlM read (next closed) >>= close = .ok scanner' →
        ∃ words, Image.Layout (c :: rest) words ∧
          words.reverse ++ closed.words = scanner'.words) :
    ∃ words, Image.Layout (scanner.token.reverse ++ c :: rest) words ∧
      words.reverse ++ scanner.words = scanner'.words := by
  rw [List.foldlM_cons, hread, bind_map_left] at h
  cases hclose : scanner.close with
  | error fault =>
    rw [hclose] at h
    cases h
  | ok closed =>
    rw [hclose] at h
    obtain ⟨htoken, hcomment⟩ := close_eq_ok hclose
    obtain ⟨words, hlayout, hwords⟩ := hrest closed htoken hcomment h
    obtain ⟨words', hlayout', hwords'⟩ := layout_of_close hclose hends hlayout
    exact ⟨words', hlayout', hwords'.trans hwords⟩

/-- What a scanner has read and found no fault in lays out the words that it found. -/
theorem layout_of_read (h : rest.foldlM read scanner >>= close = .ok scanner')
    (hpending : scanner.Pending pending) :
    ∃ words, Image.Layout (pending ++ rest) words ∧
      words.reverse ++ scanner.words = scanner'.words := by
  -- the text is taken apart from its front, and what is read of a token or a comment goes over to
  -- what is pending
  induction rest generalizing scanner pending with
  | nil =>
    rw [List.foldlM_nil, pure_bind] at h
    cases hpending with
    | token hcomment => exact layout_of_close h (by simp [Image.EndsToken]) (.gap .nil)
    | comment hcomment htoken htext =>
      rw [close_of_token_eq_nil htoken] at h
      cases h
      rw [List.append_nil]
      exact ⟨[], .comment .nil htext, rfl⟩
  | cons c rest ih =>
    have hfresh {closed : Scanner} (htoken : closed.token = [])
        (hcomment : closed.inComment = false) : closed.Pending [] := by
      have hpending := Pending.token hcomment
      rwa [htoken] at hpending
    cases hpending with
    | token hcomment =>
      by_cases hmark : c = '#'
      · subst hmark
        refine layout_of_end (read_mark hcomment) (by simp [Image.EndsToken]) h ?_
        intro closed htoken _ hrest
        exact ih hrest (.comment rfl htoken List.not_mem_nil)
      · by_cases hblank : isBlank c
        · have hends : Image.EndsToken (c :: rest) := by simp [Image.EndsToken, hblank]
          by_cases hnewline : c = '\n'
          · subst hnewline
            refine layout_of_end scanner.read_newline hends h ?_
            intro closed htoken _ hrest
            obtain ⟨words, hlayout, hwords⟩ := ih hrest (hfresh htoken rfl)
            exact ⟨words, Image.Gap.layout (.blank hblank .nil) hlayout, hwords⟩
          · have hread : scanner.read c = id <$> scanner.close := by
              rw [read_blank hcomment hblank hnewline, id_map]
            refine layout_of_end hread hends h ?_
            intro closed htoken hsame hrest
            obtain ⟨words, hlayout, hwords⟩ := ih hrest (hfresh htoken (hsame.trans hcomment))
            exact ⟨words, Image.Gap.layout (.blank hblank .nil) hlayout, hwords⟩
        · rw [List.foldlM_cons, read_plain hcomment hblank hmark, pure_bind] at h
          obtain ⟨words, hlayout, hwords⟩ := ih h (.token hcomment)
          rw [List.reverse_cons, List.append_assoc] at hlayout
          exact ⟨words, hlayout, hwords⟩
    | @comment text hcomment htoken htext =>
      by_cases hnewline : c = '\n'
      · subst hnewline
        rw [List.foldlM_cons, read_newline, close_of_token_eq_nil htoken] at h
        obtain ⟨words, hlayout, hwords⟩ := ih h (hfresh htoken rfl)
        have hgap : Image.Gap ('#' :: text ++ '\n' :: []) := .comment htext .nil
        have hlayout' := hgap.layout hlayout
        rw [List.append_assoc] at hlayout'
        exact ⟨words, hlayout', hwords⟩
      · rw [List.foldlM_cons, read_in_comment hcomment hnewline, pure_bind] at h
        have htext' : '\n' ∉ text ++ [c] := by simp [htext, Ne.symm hnewline]
        obtain ⟨words, hlayout, hwords⟩ := ih h (.comment hcomment htoken htext')
        rw [← List.cons_append, List.append_assoc] at hlayout
        exact ⟨words, hlayout, hwords⟩

end

end Scanner

/-- The words of a text are those that it lays out, and a text that lays out none has none. -/
theorem Image.words_eq_ok_iff {text : List Char} {words : List Word} :
    Image.words text = .ok words ↔ Layout text words := by
  refine ⟨fun h => ?_, words_of_layout⟩
  rw [words_eq_read] at h
  cases hread : text.foldlM Scanner.read {} >>= Scanner.close with
  | error fault =>
    rw [hread] at h
    cases h
  | ok scanner =>
    rw [hread] at h
    cases h
    obtain ⟨words, hlayout, hwords⟩ := Scanner.layout_of_read hread (.token rfl)
    show Layout text scanner.words.reverse
    rw [← hwords, List.append_nil, List.reverse_reverse]
    exact hlayout

/-- The texts that are read as an image are those that lay out its words, the result in front. -/
theorem Image.ofText_eq_ok_iff {source : String} {image : Image} :
    ofText source = .ok image ↔ Layout source.toList (image.result :: image.heap) := by
  rw [← words_eq_ok_iff, ofText]
  obtain ⟨result, heap⟩ := image
  cases words source.toList with
  | error fault => exact ⟨nofun, nofun⟩
  | ok words =>
    cases words with
    | nil => exact ⟨nofun, nofun⟩
    | cons result' heap' => simp

end TaggedValues
