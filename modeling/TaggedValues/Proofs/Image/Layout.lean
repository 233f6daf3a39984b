import TaggedValues.Proofs.Image.Scan
import TaggedValues.Proofs.Image.Spelling

/-!
# Reading what was laid out

A scanner passes over a gap with its words as they were (`Image.Gap.read`), collects the characters
of a token (`Scanner.read_token`), and finds the word of the token where that ends, whatever ends it
(`Scanner.read_of_endsToken`). So of a text that lays out words it finds just these
(`Image.Layout.read`), and the words of the text are those laid out (`Image.words_of_layout`).
-/

namespace TaggedValues

open Text

namespace Scanner

section
variable {scanner : Scanner} {token text : List Char}

/-- The characters of a token are collected. -/
theorem read_token (hsolid : ∀ c ∈ token, Solid c) (hcomment : scanner.inComment = false) :
    token.foldlM read scanner =
      pure { scanner with token := token.reverse ++ scanner.token } := by
  induction token generalizing scanner with
  | nil => rfl
  | cons c rest ih =>
    obtain ⟨⟨hblank, hmark⟩, hrest⟩ := List.forall_mem_cons.1 hsolid
    rw [List.foldlM_cons, read_plain hcomment hblank hmark, pure_bind, List.reverse_cons,
      List.append_assoc]
    exact ih hrest hcomment

/-- A token that spells a word ends with that word found. -/
theorem close_of_spelled {word : Word} (h : Word.Spelled token word) (line : Nat)
    (found : List Word) :
    close { line, token := token.reverse, words := found } =
      pure { line, words := word :: found } := by
  have hword : Word.ofToken? token = some word := Word.ofToken?_eq_some_iff.2 h
  have hclose : tokens.close token.reverse [] = [token] := by
    simp [tokens.close, h.solid.1]
  rw [close_eq, hclose]
  simp only [Located.wordsOn, List.map_cons, List.map_nil, List.mapM_cons, List.mapM_nil,
    Located.word, hword]
  rfl

/-- Behind the end of a token there is no open token. -/
theorem close_eq_ok {scanner' : Scanner} (h : scanner.close = .ok scanner') :
    scanner'.token = [] ∧ scanner'.inComment = scanner.inComment := by
  rw [close_eq] at h
  cases hwords : Located.wordsOn scanner.line (tokens.close scanner.token []) with
  | error fault =>
    rw [hwords] at h
    cases h
  | ok words =>
    rw [hwords] at h
    cases h
    exact ⟨rfl, rfl⟩

/-- A character that ends a token does what it does behind the end of the token. -/
theorem read_eq_close_bind {c : Char} (next : Scanner → Scanner)
    (hread : ∀ scanner : Scanner, scanner.inComment = false →
      scanner.read c = next <$> scanner.close)
    (hcomment : scanner.inComment = false) :
    scanner.read c = scanner.close >>= fun scanner => scanner.read c := by
  rw [hread scanner hcomment]
  cases hclose : scanner.close with
  | error fault => rfl
  | ok scanner' =>
    obtain ⟨htoken, hsame⟩ := close_eq_ok hclose
    show next <$> .ok scanner' = scanner'.read c
    rw [hread scanner' (hsame.trans hcomment), close_of_token_eq_nil htoken]
    rfl

/-- What follows an open token ends it. -/
theorem read_of_endsToken (hends : Image.EndsToken text) (hcomment : scanner.inComment = false) :
    text.foldlM read scanner >>= close =
      scanner.close >>= fun scanner => text.foldlM read scanner >>= close := by
  cases text with
  | nil =>
    cases hclose : scanner.close with
    | error fault =>
      rw [List.foldlM_nil, pure_bind, hclose]
      rfl
    | ok scanner' =>
      rw [List.foldlM_nil, pure_bind, hclose]
      exact (close_of_token_eq_nil (close_eq_ok hclose).1).symm
  | cons c rest =>
    have hread : scanner.read c = scanner.close >>= fun scanner => scanner.read c := by
      by_cases hnewline : c = '\n'
      · subst hnewline
        exact read_eq_close_bind nextLine (fun scanner _ => scanner.read_newline) hcomment
      · -- what else ends a token is not the end of a line, so the scanner stays on its line
        rcases hends c rfl with hblank | rfl
        · refine read_eq_close_bind id (fun scanner h => ?_) hcomment
          rw [read_blank h hblank hnewline, id_map]
        · exact read_eq_close_bind _ (fun _ => read_mark) hcomment
    simp only [List.foldlM_cons, hread, bind_assoc]

end

end Scanner

namespace Image

section
variable {text : List Char} {words : List Word}

/-- Over a gap a scanner gets further down only. -/
theorem Gap.read (h : Gap text) (line : Nat) (found : List Word) :
    ∃ line', text.foldlM Scanner.read { line, words := found } =
      pure { line := line', words := found } := by
  induction h generalizing line with
  | nil => exact ⟨line, rfl⟩
  | @blank c rest hblank _ ih =>
    by_cases hnewline : c = '\n'
    · subst hnewline
      obtain ⟨line', hline⟩ := ih (line + 1)
      exact ⟨line', hline⟩
    · obtain ⟨line', hline⟩ := ih line
      refine ⟨line', ?_⟩
      rw [List.foldlM_cons, Scanner.read_blank rfl hblank hnewline,
        Scanner.close_of_token_eq_nil rfl, pure_bind, hline]
  | comment htext _ ih =>
    obtain ⟨line', hline⟩ := ih (line + 1)
    refine ⟨line', ?_⟩
    rw [List.cons_append, List.foldlM_cons, Scanner.read_mark rfl,
      Scanner.close_of_token_eq_nil rfl, map_pure, pure_bind, List.foldlM_append,
      Scanner.foldlM_read_in_comment rfl htext, pure_bind]
    exact hline

/-- Of a text that lays out words a scanner finds these words. -/
theorem Layout.read (h : Layout text words) (line : Nat) (found : List Word) :
    Scanner.words <$> (text.foldlM Scanner.read { line, words := found } >>= Scanner.close) =
      .ok (words.reverse ++ found) := by
  induction h generalizing line found with
  | gap hgap =>
    obtain ⟨line', hline⟩ := hgap.read line found
    rw [hline]
    rfl
  | comment hgap htext =>
    obtain ⟨line', hline⟩ := hgap.read line found
    rw [List.foldlM_append, hline, pure_bind, List.foldlM_cons, Scanner.read_mark rfl,
      Scanner.close_of_token_eq_nil rfl, map_pure, pure_bind,
      Scanner.foldlM_read_in_comment rfl htext]
    rfl
  | @word gap token rest word words hgap htoken hends _ ih =>
    obtain ⟨line', hline⟩ := hgap.read line found
    rw [List.foldlM_append, List.foldlM_append, hline, pure_bind,
      Scanner.read_token htoken.solid.2 rfl, pure_bind, Scanner.read_of_endsToken hends rfl,
      List.append_nil, Scanner.close_of_spelled htoken, pure_bind, ih, List.reverse_cons,
      List.append_assoc]
    rfl

/-- The words of a text are those that it lays out. -/
theorem words_of_layout (h : Layout text words) : Image.words text = .ok words := by
  rw [words_eq_read]
  have hread := h.read 1 []
  rw [List.append_nil] at hread
  have hwords := congrArg (List.reverse <$> ·) hread
  simp only [Functor.map_map] at hwords
  rw [hwords]
  exact congrArg Except.ok words.reverse_reverse

end

end Image

end TaggedValues
