import TaggedValues.Proofs.Image.Joining

/-!
# Images in two parts

What a source is read as says which words it has, or which of its tokens is none
(`Image.listing_ofText`). A line feed keeps the tokens in front of it and behind it apart, also
where it ends a comment, so a source can be read in two parts: its first fault and its words are
those of the parts, and the lines of the second part are counted on from those of the first
(`Image.ofText_in_parts`).
-/

namespace TaggedValues

namespace Image

/-- The words of what a source was read as, the result in front. There are none when it has no
result. -/
def listing : Except Fault Image → Except Fault (List Word)
  | .ok image => .ok (image.result :: image.heap)
  | .error .emptyImage => .ok []
  | .error fault => .error fault

section
variable {outcome : Except Fault Image} {token : String} {line : Nat}

/-- A listing has a bad token where the reading of the image has it. -/
theorem listing_eq_invalidToken_iff :
    listing outcome = .error (.invalidToken token line) ↔
      outcome = .error (.invalidToken token line) := by
  cases outcome with
  | ok image => simp [listing]
  | error fault => cases fault <;> simp [listing]

/-- A listing is empty if and only if the image is. -/
theorem listing_eq_nil_iff : listing outcome = .ok [] ↔ outcome = .error .emptyImage := by
  cases outcome with
  | ok image => simp [listing]
  | error fault => cases fault <;> simp [listing]

/-- What a source is read as lists its words. -/
theorem listing_ofText (source : String) : listing (ofText source) = words source.toList := by
  rw [ofText]
  cases hwords : words source.toList with
  | error fault =>
    -- no fault of a token is the lack of a result
    obtain ⟨token, line, rfl, -⟩ := onLines_of_words_eq_error hwords
    rfl
  | ok found => cases found <;> rfl

/-- The words of two parts with a line feed between them, or the first fault of theirs. -/
theorem listing_ofText_append_newline (front back : String) :
    listing (ofText (front ++ "\n" ++ back)) = do
      let found ← words front.toList
      let found' ← (words back.toList).mapError (Fault.below (front.toList.count '\n' + 1))
      return found ++ found' := by
  have hnewline : "\n".toList = ['\n'] := rfl
  rw [listing_ofText, String.toList_append, String.toList_append, hnewline, List.append_assoc,
    List.singleton_append, words_append_newline]

/-- A source with a line feed in it is read as its parts are. A token of the first part that is no
word is reported on its line, and otherwise one of the second part as far below as the first part
and its line feed reach. Otherwise the words are those of the first part and then those of the
second, so there is no result exactly when neither part has one. A source cannot be read as anything
else. -/
theorem ofText_in_parts (front back : String) :
    (∀ token line, ofText front = .error (.invalidToken token line) →
      ofText (front ++ "\n" ++ back) = .error (.invalidToken token line)) ∧
    (∀ found token line, listing (ofText front) = .ok found →
      ofText back = .error (.invalidToken token line) →
      ofText (front ++ "\n" ++ back) =
        .error (.invalidToken token (line + 1 + front.toList.count '\n'))) ∧
    (∀ found found', listing (ofText front) = .ok found → listing (ofText back) = .ok found' →
      listing (ofText (front ++ "\n" ++ back)) = .ok (found ++ found')) ∧
    (ofText (front ++ "\n" ++ back) = .error .emptyImage ↔
      ofText front = .error .emptyImage ∧ ofText back = .error .emptyImage) ∧
    ∀ source, (∃ found, listing (ofText source) = .ok found) ∨
      ∃ token line, ofText source = .error (.invalidToken token line) := by
  have hwhole := listing_ofText_append_newline front back
  simp only [← listing_eq_invalidToken_iff, ← listing_eq_nil_iff, hwhole, listing_ofText]
  refine ⟨?_, ?_, ?_, ?_, ?_⟩
  · intro token line hfront
    rw [hfront]
    rfl
  · intro found token line hfront hback
    rw [hfront, hback, Nat.add_assoc, Nat.add_comm 1]
    rfl
  · intro found found' hfront hback
    rw [hfront, hback]
    rfl
  · cases words front.toList with
    | error fault => exact ⟨nofun, nofun⟩
    | ok found =>
      cases words back.toList with
      | error fault => exact ⟨nofun, nofun⟩
      | ok found' =>
        show Except.ok (found ++ found') = .ok [] ↔ _
        simp
  · intro source
    cases hwords : words source.toList with
    | ok found => exact .inl ⟨found, rfl⟩
    | error fault =>
      obtain ⟨token, line, rfl, -⟩ := onLines_of_words_eq_error hwords
      exact .inr ⟨token, line, rfl⟩

/-- A first part that ends in a carriage return behind a comment and a word, with a second part at
fault and with one that is not, and a first part at fault. -/
theorem ofText_in_parts_commented :
    listing (ofText "1 # 2\n3\r") = .ok [⟨1⟩, ⟨3⟩] ∧
      ofText "1 # 2\n3\r\n\n4x" = .error (.invalidToken "4x" 4) ∧
      listing (ofText "1 # 2\n3\r\n4 # 5") = .ok [⟨1⟩, ⟨3⟩, ⟨4⟩] ∧
      ofText "7x\n\n8y" = .error (.invalidToken "7x" 1) := by
  have hfront : listing (ofText "1 # 2\n3\r") = .ok [⟨1⟩, ⟨3⟩] := rfl
  obtain ⟨-, hfault, -⟩ := ofText_in_parts "1 # 2\n3\r" "\n4x"
  obtain ⟨-, -, hfound, -⟩ := ofText_in_parts "1 # 2\n3\r" "4 # 5"
  obtain ⟨hfirst, -⟩ := ofText_in_parts "7x\n" "8y"
  exact ⟨hfront, hfault _ "4x" 2 hfront rfl, hfound _ [⟨4⟩] hfront rfl, hfirst "7x" 1 rfl⟩

end

end Image

end TaggedValues
