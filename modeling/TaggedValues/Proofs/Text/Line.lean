import TaggedValues.Text.Line

/-!
# Lines and tokens of a text

The readers of `lines` and `tokens` carry what they have found so far. What is found comes in front
of what the rest of the text gives (`lines_go_found`, `tokens_go_found`), so both can be followed
line by line and token by token. A blank at the end of a text opens no token
(`tokens_go_append_blank`), so the carriage return in front of a line feed makes no difference to
the tokens of a line (`tokens_uncommented_ended`).
-/

namespace TaggedValues.Text

/-- The open token alone, unless it is empty. -/
theorem tokens_close (token : List Char) (found : List (List Char)) :
    (tokens.close token found).reverse = found.reverse ++ tokens.close token [] := by
  unfold tokens.close
  split <;> simp

/-- The tokens found come in front of those of the rest. -/
theorem tokens_go_found (token : List Char) (found : List (List Char)) (text : List Char) :
    tokens.go token found text = found.reverse ++ tokens.go token [] text := by
  induction text generalizing token found with
  | nil =>
    rw [tokens.go, tokens.go, tokens_close, tokens_close token [], List.reverse_nil,
      List.nil_append]
  | cons c rest ih =>
    rw [tokens.go, tokens.go]
    split
    · rw [ih, ih [] (tokens.close token []), tokens_close, tokens_close token [],
        List.reverse_nil, List.nil_append, List.append_assoc]
    · exact ih (c :: token) found

/-- A blank behind a text ends the open token, which ends there anyway. -/
theorem tokens_go_append_blank {blank : Char} (hblank : isBlank blank) (token : List Char)
    (found : List (List Char)) (text : List Char) :
    tokens.go token found (text ++ [blank]) = tokens.go token found text := by
  induction text generalizing token found with
  | nil =>
    simp only [List.nil_append, tokens.go, hblank, ↓reduceIte]
    rfl
  | cons c rest ih =>
    rw [List.cons_append, tokens.go, tokens.go]
    split
    · exact ih [] _
    · exact ih (c :: token) found

/-- The carriage return in front of the end of a line belongs to no token. The line is given in
reverse. -/
theorem tokens_uncommented_ended (line : List Char) :
    tokens (uncommented (if line.head? = some '\r' then line.tail else line).reverse) =
      tokens (uncommented line.reverse) := by
  split
  · next hreturn =>
    obtain ⟨rest, rfl⟩ := List.head?_eq_some_iff.1 hreturn
    rw [List.tail_cons, List.reverse_cons, uncommented, uncommented, List.takeWhile_append]
    split
    · next hlength =>
      have hwhole := (List.takeWhile_prefix (· ≠ '#')).eq_of_length hlength
      rw [hwhole]
      exact (tokens_go_append_blank (by decide) [] [] rest.reverse).symm
    · rfl
  · rfl

/-- The lines found come in front of those of the rest. -/
theorem lines_go_found (line : List Char) (found : List (List Char)) (text : List Char) :
    lines.go line found text = found.reverse ++ lines.go line [] text := by
  induction text generalizing line found with
  | nil =>
    rw [lines.go, lines.go]
    split <;> simp
  | cons c rest ih =>
    rw [lines.go, lines.go]
    split
    · dsimp only
      rw [ih, ih [] [_], List.reverse_cons, List.append_assoc]
      rfl
    · exact ih (c :: line) found

end TaggedValues.Text
