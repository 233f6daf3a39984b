import TaggedValues.Proofs.Image.Layout

/-!
# Joining images

A scanner counts the line feeds it has read (`Scanner.line_of_read`), so a token that is no word is
reported on the line it stands on. At a line feed it starts afresh, so the words of two sources with
a line feed between them are those of the first and then those of the second, whose lines count on
(`Image.words_append_newline`). A text that lays out no words changes none in front of it
(`Image.Layout.words_append`). Hence an image is what a scanner reads, and how its lines end, what
stands behind their last tokens and which lines are blank makes no difference to it
(`Image.ofText_eq_scan`).
-/

namespace TaggedValues

open Text

/-! ## Faults on other lines -/

/-- The fault if so many lines stood in front of its source. -/
def Fault.below (lines : Nat) : Fault → Fault
  | invalidToken token line => invalidToken token (line + lines)
  | fault => fault

/-- The fault if one more line stood behind the given line of its source. -/
def Fault.parted (behind : Nat) : Fault → Fault
  | invalidToken token line => invalidToken token (if line ≤ behind then line else line + 1)
  | fault => fault

/-- The fault names a token on one of the lines from `first` to `last`. -/
def Fault.OnLines (first last : Nat) (fault : Fault) : Prop :=
  ∃ token line, fault = .invalidToken token line ∧ first ≤ line ∧ line ≤ last

/-- A fault in front of the line that was added stays where it is. -/
theorem Fault.OnLines.parted_eq {fault : Fault} {first behind : Nat}
    (h : fault.OnLines first behind) : fault.parted behind = fault := by
  obtain ⟨token, line, rfl, -, hle⟩ := h
  rw [parted, if_pos hle]

/-- A fault behind the line that was added moves down by that line. -/
theorem Fault.OnLines.parted_below {fault : Fault} {last : Nat} (h : fault.OnLines 1 last)
    (behind : Nat) : (fault.below behind).parted behind = (fault.below 1).below behind := by
  obtain ⟨token, line, rfl, hle, -⟩ := h
  have hlt : ¬ line + behind ≤ behind := by omega
  rw [below, parted, if_neg hlt, below, below, Nat.add_right_comm]

/-- The token if so many lines stood in front of it. -/
def Located.below (lines : Nat) (located : Located) : Located :=
  { located with line := located.line + lines }

/-- A token further down reads as before, or its fault is that many lines further down. -/
theorem Located.word_below (lines : Nat) (located : Located) :
    (located.below lines).word = located.word.mapError (Fault.below lines) := by
  unfold word below
  dsimp only
  cases Word.ofToken? located.token <;> rfl

/-- Lines that begin further down have the same tokens further down. -/
theorem Located.onLines_add (number count : Nat) (lines : List (List Char)) :
    onLines (number + count) lines = (onLines number lines).map (below count) := by
  induction lines generalizing number with
  | nil => rfl
  | cons line rest ih =>
    rw [onLines_cons, onLines_cons, List.map_append, List.map_map, ← ih, Nat.add_right_comm]
    rfl

/-- The words of tokens further down are the same, and a fault is further down. -/
theorem Located.mapM_word_below (lines : Nat) (tokens : List Located) :
    (tokens.map (below lines)).mapM word = (tokens.mapM word).mapError (Fault.below lines) := by
  induction tokens with
  | nil => rfl
  | cons located rest ih =>
    rw [List.map_cons, List.mapM_cons, List.mapM_cons, word_below, ih]
    cases located.word with
    | error fault => rfl
    | ok word => cases rest.mapM Located.word <;> rfl

/-! ## The line of a scanner -/

namespace Scanner

/-- The scanner has gone so many lines down, or a token on one of them was at fault. -/
def Descends (scanner : Scanner) (lines : Nat) : Except Fault Scanner → Prop
  | .ok scanner' => scanner'.line = scanner.line + lines
  | .error fault => fault.OnLines scanner.line (scanner.line + lines)

section
variable {scanner scanner' : Scanner} {lines further : Nat} {result : Except Fault Scanner}

/-- One part of a text and then another go down the lines of both. -/
theorem Descends.bind {next : Scanner → Except Fault Scanner} (h : scanner.Descends lines result)
    (hnext : ∀ middle : Scanner, middle.Descends further (next middle)) :
    scanner.Descends (lines + further) (result >>= next) := by
  cases result with
  | error fault =>
    obtain ⟨token, line, hfault, hfirst, hlast⟩ := h
    exact ⟨token, line, hfault, hfirst, by omega⟩
  | ok middle =>
    have hline : middle.line = scanner.line + lines := h
    have hmiddle := hnext middle
    show scanner.Descends _ (next middle)
    cases hresult : next middle with
    | error fault =>
      rw [hresult] at hmiddle
      obtain ⟨token, line, hfault, hfirst, hlast⟩ := hmiddle
      exact ⟨token, line, hfault, by omega, by omega⟩
    | ok scanner' =>
      rw [hresult] at hmiddle
      have hline' : scanner'.line = middle.line + further := hmiddle
      show scanner'.line = scanner.line + (lines + further)
      omega

/-- A step that goes down by itself adds its lines to those of what came before. -/
theorem Descends.map {next : Scanner → Scanner} (h : scanner.Descends lines result)
    (hnext : ∀ middle : Scanner, (next middle).line = middle.line + further) :
    scanner.Descends (lines + further) (next <$> result) := by
  rw [map_eq_pure_bind]
  exact h.bind hnext

/-- Only the token that ends can be at fault. -/
theorem descends_close (scanner : Scanner) : scanner.Descends 0 scanner.close := by
  unfold close
  split
  · rfl
  · split
    · rfl
    · exact ⟨_, _, rfl, Nat.le_refl _, Nat.le_refl _⟩

/-- Reading a character goes down one line at a line feed, and none elsewhere. -/
theorem descends_read (scanner : Scanner) (c : Char) :
    scanner.Descends (if c = '\n' then 1 else 0) (scanner.read c) := by
  by_cases hnewline : c = '\n'
  · subst hnewline
    show scanner.Descends (0 + 1) (nextLine <$> scanner.close)
    exact scanner.descends_close.map fun _ => rfl
  · rw [if_neg hnewline]
    cases hcomment : scanner.inComment with
    | true =>
      rw [read_in_comment hcomment hnewline]
      rfl
    | false =>
      by_cases hmark : c = '#'
      · subst hmark
        rw [read_mark hcomment]
        show scanner.Descends (0 + 0) _
        exact scanner.descends_close.map fun _ => rfl
      · by_cases hblank : isBlank c
        · rw [read_blank hcomment hblank hnewline]
          exact scanner.descends_close
        · rw [read_plain hcomment hblank hmark]
          rfl

/-- A scanner counts the line feeds that it reads. -/
theorem descends_foldlM_read (scanner : Scanner) (text : List Char) :
    scanner.Descends (text.count '\n') (text.foldlM read scanner) := by
  induction text generalizing scanner with
  | nil => rfl
  | cons c rest ih =>
    rw [List.foldlM_cons, List.count_cons, Nat.add_comm]
    simp only [beq_iff_eq]
    exact (scanner.descends_read c).bind ih

/-- A scanner that was not stopped is as many lines further down as it has read line feeds, and
outside of tokens. -/
theorem of_read_eq_ok {text : List Char} (h : text.foldlM read scanner >>= close = .ok scanner') :
    scanner'.line = scanner.line + text.count '\n' ∧ scanner'.token = [] := by
  have hdescends := (scanner.descends_foldlM_read text).bind descends_close
  rw [h] at hdescends
  refine ⟨hdescends, ?_⟩
  cases hread : text.foldlM read scanner with
  | error fault =>
    rw [hread] at h
    cases h
  | ok middle =>
    rw [hread] at h
    exact (close_eq_ok h).1

/-- A scanner that was stopped found the fault on one of the lines that it was to read. -/
theorem of_read_eq_error {text : List Char} {fault : Fault}
    (h : text.foldlM read scanner >>= close = .error fault) :
    fault.OnLines scanner.line (scanner.line + text.count '\n') := by
  have hdescends := (scanner.descends_foldlM_read text).bind descends_close
  rw [h] at hdescends
  exact hdescends

/-- At a line feed a scanner ends its token and starts afresh. -/
theorem foldlM_read_newline (before after : List Char) (scanner : Scanner) :
    (before ++ '\n' :: after).foldlM read scanner >>= close =
      before.foldlM read scanner >>= close >>= fun closed =>
        after.foldlM read closed.nextLine >>= close := by
  simp only [List.foldlM_append, List.foldlM_cons, read_newline, bind_assoc, bind_map_left]

end

end Scanner

namespace Image

section
variable {source before after text : List Char} {fault : Fault}

/-! ## What stands in front of a line feed and behind it -/

/-- The words of the lines from the given one on, the first of which is the first of the source. -/
theorem read_eq_words_below (after : List Char) (words : List Word) (lines : Nat) :
    Scanner.words <$>
        (after.foldlM Scanner.read { line := 1 + lines, words } >>= Scanner.close) =
      (·.reverse ++ words) <$> (Image.words after).mapError (Fault.below lines) := by
  have h := Scanner.read_lines [] after { line := 1 + lines, words } List.not_mem_nil rfl rfl
  rw [List.reverse_nil, List.nil_append, Located.onLines_add, Located.mapM_word_below] at h
  exact h

/-- The words of two sources with a line feed between them are those of the first and then those of
the second, whose lines count on. -/
theorem words_append_newline (before after : List Char) :
    words (before ++ '\n' :: after) = do
      let front ← words before
      let back ← (words after).mapError (Fault.below (before.count '\n' + 1))
      return front ++ back := by
  rw [words_eq_read, Scanner.foldlM_read_newline, words_eq_read before]
  cases hbefore : before.foldlM Scanner.read {} >>= Scanner.close with
  | error fault => rfl
  | ok scanner =>
    obtain ⟨hline, htoken⟩ := Scanner.of_read_eq_ok hbefore
    have hnext : scanner.nextLine =
        { line := 1 + (before.count '\n' + 1), words := scanner.words } := by
      rw [Scanner.nextLine, hline, htoken]
      simp only [Nat.add_assoc]
    have hafter := read_eq_words_below after scanner.words (before.count '\n' + 1)
    show (fun scanner : Scanner => scanner.words.reverse) <$>
      (after.foldlM Scanner.read scanner.nextLine >>= Scanner.close) = _
    rw [hnext]
    have hreverse := congrArg (List.reverse <$> ·) hafter
    simp only [Functor.map_map, List.reverse_append, List.reverse_reverse] at hreverse
    rw [hreverse]
    cases (words after).mapError (Fault.below (before.count '\n' + 1)) <;> rfl

/-- A source is at fault for one of its tokens. -/
theorem onLines_of_words_eq_error (h : words source = .error fault) :
    fault.OnLines 1 (1 + source.count '\n') := by
  rw [words_eq_read] at h
  cases hread : source.foldlM Scanner.read {} >>= Scanner.close with
  | error fault' =>
    rw [hread] at h
    cases h
    exact Scanner.of_read_eq_error hread
  | ok scanner =>
    rw [hread] at h
    cases h

end

end Image

/-! ## Text without words -/

namespace Scanner

section
variable {scanner : Scanner} {text : List Char}

/-- Closing finds no word when no token is open. -/
theorem words_close (h : scanner.token = []) : words <$> scanner.close = pure scanner.words := by
  rw [close_of_token_eq_nil h, map_pure]

/-- Behind the end of a token its word is found, so further reading that finds none leaves the words
that are found there. -/
theorem words_read_bind (text : List Char) {further : Scanner → Except Fault Scanner}
    (hfurther : ∀ scanner : Scanner, scanner.token = [] →
      words <$> further scanner = pure scanner.words) :
    words <$> (text.foldlM read scanner >>= close >>= further) =
      words <$> (text.foldlM read scanner >>= close) := by
  cases hread : text.foldlM read scanner >>= close with
  | error fault => rfl
  | ok closed => exact hfurther closed (of_read_eq_ok hread).2

/-- Steps behind a close that find no words leave the words as the close finds them. -/
theorem words_close_bind {further : Scanner → Except Fault Scanner}
    (hfurther : ∀ scanner : Scanner, scanner.token = [] →
      words <$> further scanner = pure scanner.words) :
    words <$> (scanner.close >>= further) = words <$> scanner.close :=
  words_read_bind [] hfurther

/-- A comment ends the open token and adds nothing, also inside a comment. -/
theorem words_read_comment (htext : '\n' ∉ text) (scanner : Scanner) :
    words <$> (('#' :: text).foldlM read scanner >>= close) = words <$> scanner.close := by
  rw [List.foldlM_cons, bind_assoc]
  cases hcomment : scanner.inComment with
  | true =>
    rw [read_in_comment hcomment (by decide), pure_bind, foldlM_read_in_comment hcomment htext,
      pure_bind]
  | false =>
    rw [read_mark hcomment, bind_map_left]
    refine words_close_bind fun closed htoken => ?_
    rw [foldlM_read_in_comment rfl htext, pure_bind]
    exact words_close htoken

/-- Over text that lays out no words a scanner finds none but that of the token it ends. -/
theorem words_read_gap {gap : List Char} (h : Image.Gap gap) (scanner : Scanner) :
    words <$> (gap.foldlM read scanner >>= close) = words <$> scanner.close := by
  induction h generalizing scanner with
  | nil => rw [List.foldlM_nil, pure_bind]
  | @blank c rest hblank _ ih =>
    rw [List.foldlM_cons, bind_assoc]
    by_cases hnewline : c = '\n'
    · subst hnewline
      rw [read_newline, bind_map_left]
      exact words_close_bind fun closed htoken => (ih closed.nextLine).trans (words_close htoken)
    · cases hcomment : scanner.inComment with
      | true => rw [read_in_comment hcomment hnewline, pure_bind, ih]
      | false =>
        rw [read_blank hcomment hblank hnewline]
        exact words_close_bind fun closed htoken => (ih closed).trans (words_close htoken)
  | @comment text rest htext _ ih =>
    rw [foldlM_read_newline, ← words_read_comment htext]
    exact words_read_bind _ fun closed htoken => (ih closed.nextLine).trans (words_close htoken)

/-- Over text that lays out no words a scanner finds none but that of the token it ends. -/
theorem words_read_layout (h : Image.Layout text []) (scanner : Scanner) :
    words <$> (text.foldlM read scanner >>= close) = words <$> scanner.close := by
  cases h with
  | gap hgap => exact words_read_gap hgap scanner
  | @comment gap text hgap htext =>
    rw [List.foldlM_append, bind_assoc, map_bind]
    simp only [words_read_comment htext]
    rw [← map_bind, words_read_gap hgap]

end

end Scanner

namespace Image

section
variable {source text : List Char}

/-- Text that lays out no words changes none in front of it. -/
theorem Layout.words_append (h : Layout text []) (source : List Char) :
    words (source ++ text) = words source := by
  have hscanner : Scanner.words <$> ((source ++ text).foldlM Scanner.read {} >>= Scanner.close) =
      Scanner.words <$> (source.foldlM Scanner.read {} >>= Scanner.close) := by
    rw [List.foldlM_append, bind_assoc, map_bind, map_bind]
    simp only [Scanner.words_read_layout h]
  have hreverse := congrArg (List.reverse <$> ·) hscanner
  simp only [Functor.map_map] at hreverse
  rw [words_eq_read, words_eq_read, hreverse]

/-- Lines that lay out no words move those behind them down and do nothing else. -/
theorem Layout.words_newline_append (h : Layout text []) (source : List Char) :
    words (text ++ '\n' :: source) =
      (words source).mapError (Fault.below (text.count '\n' + 1)) := by
  rw [words_append_newline, words_of_layout h]
  cases words source <;> rfl

/-- A line that lays out no words parts the lines in front of it from those behind it and does
nothing else. -/
theorem words_blank_line (h : Layout text []) (hline : '\n' ∉ text) (before after : List Char) :
    words (before ++ '\n' :: (text ++ '\n' :: after)) =
      (words (before ++ '\n' :: after)).mapError (Fault.parted (before.count '\n' + 1)) := by
  rw [words_append_newline before, words_append_newline before, h.words_newline_append,
    List.count_eq_zero_of_not_mem hline]
  cases hbefore : words before with
  | error fault =>
    have honLines := onLines_of_words_eq_error hbefore
    rw [Nat.add_comm] at honLines
    exact congrArg Except.error honLines.parted_eq.symm
  | ok front =>
    cases hafter : words after with
    | error fault =>
      have honLines := onLines_of_words_eq_error hafter
      exact congrArg Except.error (honLines.parted_below _).symm
    | ok back => rfl

/-! ## Images -/

/-- Two sources whose words are the same up to the places of faults read as the same image up to
these places. -/
theorem ofText_eq_mapError {source source' : String} {move : Fault → Fault}
    (hmove : move .emptyImage = .emptyImage)
    (h : words source.toList = (words source'.toList).mapError move) :
    ofText source = (ofText source').mapError move := by
  unfold ofText
  rw [h]
  cases words source'.toList with
  | error fault => rfl
  | ok words =>
    cases words with
    | nil => exact congrArg Except.error hmove.symm
    | cons result heap => rfl

/-- Sources with the same words read as the same image. -/
theorem ofText_congr {source source' : String} (h : words source.toList = words source'.toList) :
    ofText source = ofText source' := by
  unfold ofText
  rw [h]

/-- An image is what a scanner reads in one pass. So blanks and comments at the end of a source make
no difference, nor do they at the end of a line, be it a carriage return. Lines that hold nothing
else change no word, and a token that is none is still reported on the line where it stands. -/
theorem ofText_eq_scan (source : String) :
    ofText source = scan source.toList ∧
      (∀ text : String, Layout text.toList [] →
        ofText (source ++ text) = ofText source ∧
          ofText (text ++ "\n" ++ source) =
            (ofText source).mapError (Fault.below (text.toList.count '\n' + 1))) ∧
      ∀ before text after : String, source = before ++ "\n" ++ after →
        Layout text.toList [] → '\n' ∉ text.toList →
          ofText (before ++ text ++ "\n" ++ after) = ofText source ∧
            ofText (before ++ "\n" ++ text ++ "\n" ++ after) =
              (ofText source).mapError (Fault.parted (before.toList.count '\n' + 1)) := by
  have hnewline : "\n".toList = ['\n'] := rfl
  refine ⟨?_, fun text htext => ⟨ofText_congr ?_, ofText_eq_mapError rfl ?_⟩, ?_⟩
  · unfold ofText scan
    rw [words_eq_read, ← bind_assoc]
    cases source.toList.foldlM Scanner.read {} >>= Scanner.close with
    | error fault => rfl
    | ok scanner =>
      dsimp only [Functor.map, Except.map, bind, Except.bind]
      cases scanner.words.reverse <;> rfl
  · rw [String.toList_append]
    exact htext.words_append source.toList
  · simp only [String.toList_append, hnewline, List.append_assoc, List.singleton_append]
    exact htext.words_newline_append source.toList
  · rintro before text after rfl htext hline
    refine ⟨ofText_congr ?_, ofText_eq_mapError rfl ?_⟩
    · simp only [String.toList_append, hnewline, List.append_assoc, List.singleton_append]
      rw [← List.append_assoc, words_append_newline, words_append_newline, htext.words_append,
        List.count_append, List.count_eq_zero_of_not_mem hline, Nat.add_zero]
    · simp only [String.toList_append, hnewline, List.append_assoc, List.singleton_append]
      exact words_blank_line htext hline before.toList after.toList

/-- A comment behind a word and a carriage return leave a fault on its line, and a line of them
moves it one down. -/
theorem ofText_eq_scan_commented :
    Layout " # one\r".toList [] ∧ ofText "1\n2x" = .error (.invalidToken "2x" 2) ∧
      ofText "1 # one\r\n2x" = .error (.invalidToken "2x" 2) ∧
      ofText "1\n # one\r\n2x\n" = .error (.invalidToken "2x" 3) := by
  have htext : Layout ([' '] ++ '#' :: " one\r".toList) [] :=
    .comment (.blank (by decide) .nil) (by decide)
  have hsource : ofText "1\n2x" = .error (.invalidToken "2x" 2) := rfl
  obtain ⟨-, -, hline⟩ := ofText_eq_scan "1\n2x"
  obtain ⟨hend, hblank⟩ := hline "1" " # one\r" "2x" rfl htext (by decide)
  obtain ⟨-, htrailing, -⟩ := ofText_eq_scan "1\n # one\r\n2x"
  have hfeed : Layout "\n".toList [] := .gap (.blank (by decide) .nil)
  refine ⟨htext, hsource, hend.trans hsource, (htrailing "\n" hfeed).1.trans ?_⟩
  rw [hsource] at hblank
  exact hblank

end

end Image

end TaggedValues
