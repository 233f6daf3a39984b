import TaggedValues.Image.Scan
import TaggedValues.Proofs.Text.Line

/-!
# The words of an image, line by line and in one pass

`Image.words` cuts a source into lines, each line into what stands in front of its comment, and that
into tokens. A `Scanner` meets the same tokens one character at a time. Over one line it finds the
words of the tokens of that line, or stops at the first that is none (`Scanner.read_line`); the end
of a line leaves it outside of tokens and comments, so this goes on over all lines
(`Scanner.read_lines`), and both ways of reading find the same words (`Image.words_eq_read`).
-/

namespace TaggedValues

open Text

/-- The words of tokens that stand on the same line. -/
def Located.wordsOn (line : Nat) (tokens : List (List Char)) : Except Fault (List Word) :=
  (tokens.map fun token => { token, line : Located }).mapM word

/-- The tokens of lines, the first of which has the given number. -/
def Located.onLines (number : Nat) (lines : List (List Char)) : List Located :=
  (lines.zipIdx number).flatMap fun (line, number) =>
    (tokens (uncommented line)).map fun token => { token, line := number }

/-- The tokens of the first line come in front of those of the others. -/
theorem Located.onLines_cons (number : Nat) (line : List Char) (rest : List (List Char)) :
    onLines number (line :: rest) =
      ((tokens (uncommented line)).map fun token => { token, line := number }) ++
        onLines (number + 1) rest := by
  rw [onLines, List.zipIdx_cons, List.flatMap_cons]
  rfl

namespace Scanner

/-- The scanner behind further words, outside of tokens. -/
def found (scanner : Scanner) (words : List Word) : Scanner :=
  { scanner with token := [], words := words.reverse ++ scanner.words }

/-- The scanner outside of comments. -/
def leaveComment (scanner : Scanner) : Scanner := { scanner with inComment := false }

/-- The scanner at the beginning of the next line. -/
def nextLine (scanner : Scanner) : Scanner :=
  { scanner with line := scanner.line + 1, inComment := false }

section
variable {scanner : Scanner} {c : Char}

/-! ## What a character does -/

/-- A line feed closes the token and goes to the next line. -/
theorem read_newline (scanner : Scanner) : scanner.read '\n' = nextLine <$> scanner.close :=
  rfl

/-- A comment hides every character up to the line feed. -/
theorem read_in_comment (hcomment : scanner.inComment = true) (hc : c ≠ '\n') :
    scanner.read c = pure scanner := by
  rw [read, if_neg hc, if_pos hcomment]
  rfl

/-- The mark of a comment closes the token and opens the comment. -/
theorem read_mark (hcomment : scanner.inComment = false) :
    scanner.read '#' = (fun scanner => { scanner with inComment := true }) <$> scanner.close := by
  rw [read, if_neg (by decide), if_neg (by simp [hcomment]), if_pos rfl]
  rfl

/-- A blank closes the token and does nothing else. -/
theorem read_blank (hcomment : scanner.inComment = false) (hblank : isBlank c) (hc : c ≠ '\n') :
    scanner.read c = scanner.close := by
  have hmark : c ≠ '#' := by
    rintro rfl
    exact absurd hblank (by decide)
  rw [read, if_neg hc, if_neg (by simp [hcomment]), if_neg hmark, if_pos hblank]

/-- Any other character goes to the token. -/
theorem read_plain (hcomment : scanner.inComment = false) (hblank : ¬ isBlank c) (hc : c ≠ '#') :
    scanner.read c = pure { scanner with token := c :: scanner.token } := by
  have hnewline : c ≠ '\n' := by
    rintro rfl
    exact hblank (by decide)
  rw [read, if_neg hnewline, if_neg (by simp [hcomment]), if_neg hc, if_neg hblank]
  rfl

/-- The rest of a comment is passed over. -/
theorem foldlM_read_in_comment {text : List Char} (hcomment : scanner.inComment = true)
    (hline : '\n' ∉ text) : text.foldlM read scanner = pure scanner := by
  induction text with
  | nil => rfl
  | cons c rest ih =>
    rw [List.mem_cons, not_or] at hline
    rw [List.foldlM_cons, read_in_comment hcomment (Ne.symm hline.1), pure_bind, ih hline.2]

/-- Without an open token there is nothing to end. -/
theorem close_of_token_eq_nil (h : scanner.token = []) : scanner.close = pure scanner := by
  rw [close, h]
  rfl

/-- The end of a token is that of the only token of a line. -/
theorem close_eq (scanner : Scanner) :
    scanner.close =
      scanner.found <$> Located.wordsOn scanner.line (tokens.close scanner.token []) := by
  obtain ⟨line, inComment, token, words⟩ := scanner
  cases token with
  | nil => rfl
  | cons c rest =>
    have hclose : tokens.close (c :: rest) [] = [(c :: rest).reverse] := rfl
    simp only [close, hclose, Located.wordsOn, List.map_cons, List.map_nil, List.mapM_cons,
      List.mapM_nil, Located.word]
    cases Word.ofToken? (c :: rest).reverse <;> rfl

end

/-! ## What a line does -/

/-- Words that are found one after the other are found together. -/
theorem found_wordsOn_append (scanner : Scanner) (line : Nat) (before behind : List (List Char)) :
    scanner.found <$> Located.wordsOn line (before ++ behind) =
      Located.wordsOn line before >>= fun words =>
        (scanner.found words).found <$> Located.wordsOn line behind := by
  have hfound (words words' : List Word) :
      scanner.found (words ++ words') = (scanner.found words).found words' := by
    simp [found]
  simp only [Located.wordsOn, List.map_append, List.mapM_append, map_eq_pure_bind, bind_assoc,
    pure_bind, hfound]

/-- Outside of a comment there is none to leave behind the words found. -/
theorem leaveComment_found {words : List Word} {scanner : Scanner}
    (hcomment : scanner.inComment = false) :
    (scanner.found words).leaveComment = scanner.found words := by
  rw [leaveComment, found, hcomment]

/-- Over the rest of a line a scanner finds the words of the tokens in front of the comment. -/
theorem read_line {text : List Char} {scanner : Scanner} (hline : '\n' ∉ text)
    (hcomment : scanner.inComment = false) :
    leaveComment <$> (text.foldlM read scanner >>= close) =
      scanner.found <$> Located.wordsOn scanner.line
        (tokens.go scanner.token [] (uncommented text)) := by
  have hclose (token : List Char) : (tokens.close token []).reverse = tokens.close token [] :=
    tokens_close token []
  induction text generalizing scanner with
  | nil =>
    rw [List.foldlM_nil, pure_bind, close_eq, ← hclose, Functor.map_map]
    simp only [leaveComment_found hcomment]
    rfl
  | cons c rest ih =>
    rw [List.mem_cons, not_or] at hline
    rw [List.foldlM_cons, bind_assoc]
    by_cases hmark : c = '#'
    · -- the mark ends the open token, and the rest of the line is passed over
      subst hmark
      rw [read_mark hcomment, close_eq, ← hclose, bind_map_left, bind_map_left, map_bind,
        map_eq_pure_bind]
      have hcut : uncommented ('#' :: rest) = [] := rfl
      rw [hcut]
      refine bind_congr fun words => ?_
      rw [foldlM_read_in_comment rfl hline.2, pure_bind, close_of_token_eq_nil rfl, map_pure,
        ← leaveComment_found hcomment]
      rfl
    · have hcut : uncommented (c :: rest) = c :: uncommented rest :=
        List.takeWhile_cons_of_pos (by simpa using hmark)
      rw [hcut, tokens.go]
      by_cases hblank : isBlank c
      · rw [if_pos hblank, read_blank hcomment hblank (Ne.symm hline.1), close_eq, bind_map_left,
          map_bind, tokens_go_found, hclose, found_wordsOn_append]
        exact bind_congr fun words => ih hline.2 hcomment
      · rw [if_neg hblank, read_plain hcomment hblank hmark, pure_bind]
        exact ih hline.2 hcomment

/-- Over a whole line, given in reverse, a scanner finds the words of the tokens of the line. -/
theorem read_whole_line {line : List Char} {scanner : Scanner} (hline : '\n' ∉ line)
    (htoken : scanner.token = []) (hcomment : scanner.inComment = false) :
    leaveComment <$> (line.reverse.foldlM read scanner >>= close) =
      scanner.found <$>
        Located.wordsOn scanner.line (tokens (uncommented line.reverse)) := by
  rw [read_line (by simpa using hline) hcomment, htoken]
  rfl

/-! ## What all lines do -/

/-- A scanner finds the words of all lines. The part of the first line in front of the text is given
in reverse. -/
theorem read_lines (line text : List Char) (scanner : Scanner) (hline : '\n' ∉ line)
    (htoken : scanner.token = []) (hcomment : scanner.inComment = false) :
    Scanner.words <$> ((line.reverse ++ text).foldlM read scanner >>= close) =
      (·.reverse ++ scanner.words) <$>
        (Located.onLines scanner.line (lines.go line [] text)).mapM Located.word := by
  -- the line read so far is kept whole, since its carriage return counts only once it has ended
  induction text generalizing line scanner with
  | nil =>
    have hwords : Scanner.words <$> (line.reverse.foldlM read scanner >>= close) =
        Scanner.words <$> leaveComment <$> (line.reverse.foldlM read scanner >>= close) := by
      rw [Functor.map_map]
      rfl
    rw [List.append_nil, hwords, read_whole_line hline htoken hcomment, Functor.map_map]
    cases line with
    | nil => rfl
    | cons c rest =>
      have hlast : lines.go (c :: rest) [] [] = [(c :: rest).reverse] := rfl
      rw [hlast, Located.onLines_cons]
      simp [Located.wordsOn, Located.onLines, found]
  | cons c rest ih =>
    by_cases hc : c = '\n'
    · subst hc
      have hlines : lines.go line [] ('\n' :: rest) =
          (if line.head? = some '\r' then line.tail else line).reverse :: lines.go [] [] rest := by
        rw [lines.go, if_pos rfl, lines_go_found]
        rfl
      have hread : (line.reverse ++ '\n' :: rest).foldlM read scanner =
          leaveComment <$> (line.reverse.foldlM read scanner >>= close) >>= fun scanner =>
            rest.foldlM read scanner.nextLine := by
        simp only [List.foldlM_append, List.foldlM_cons, read_newline, bind_assoc, bind_map_left]
        rfl
      rw [hlines, Located.onLines_cons, tokens_uncommented_ended, hread,
        read_whole_line hline htoken hcomment, bind_map_left, bind_assoc, map_bind,
        List.mapM_append, map_bind]
      refine bind_congr fun words => ?_
      have := ih [] (scanner.found words).nextLine List.not_mem_nil rfl rfl
      rw [List.reverse_nil, List.nil_append] at this
      rw [this]
      simp [found, nextLine]
    · have hmore : lines.go line [] (c :: rest) = lines.go (c :: line) [] rest := by
        rw [lines.go, if_neg hc]
      have hread : line.reverse ++ c :: rest = (c :: line).reverse ++ rest := by simp
      rw [hmore, hread]
      exact ih _ scanner (by simpa using ⟨Ne.symm hc, hline⟩) htoken hcomment

end Scanner

/-- The words of an image are those that a scanner finds in its source. -/
theorem Image.words_eq_read (source : List Char) :
    words source =
      (fun scanner => scanner.words.reverse) <$>
        (source.foldlM Scanner.read {} >>= Scanner.close) := by
  have h := Scanner.read_lines [] source {} List.not_mem_nil rfl rfl
  rw [List.reverse_nil, List.nil_append] at h
  have hreverse := congrArg (List.reverse <$> ·) h
  simp only [Functor.map_map, List.append_nil, List.reverse_reverse, id_map'] at hreverse
  exact hreverse.symm

end TaggedValues
