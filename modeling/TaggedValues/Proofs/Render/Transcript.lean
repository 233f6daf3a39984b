import TaggedValues.Proofs.Draft.Transcript
import TaggedValues.Render.Descent

/-!
# The transcript of a value

`transcript` reads a value by plain recursion on its pairs and says what rendering writes, which
pairs it enters and which fault ends it. No draft and no stack has a part in it. Rendering follows
it: the stack of fragments comes to the same text, the same pairs and the same fault on every heap,
and gives the word back when there is no fault (`render_eq_transcript`).
-/

namespace TaggedValues

open Text

/-- How a word that is no pair is written. -/
def Word.Kind.text : Word.Kind → String
  | .int value => toString value.toInt
  | .closure => "<function>"
  | .bool true => "true"
  | .bool false => "false"
  | .pair _ => ""
  | .invalid bits =>
    "Unknown value: 0x" ++ String.ofList ((Nat.toDigits 16 bits.toNat).leftpad 8 '0')

/-- What rendering a word inside `depth` pairs comes to. A pair that lies too deep is a fault before
one that lies outside the heap. -/
def transcript (heap : Heap) (limit : Nat) (word : Word) (depth : Nat) : Transcript :=
  match word.kind with
  | .pair offset =>
    if limit ≤ depth then .failure (.depthExceeded limit)
    else
      match heap.pair? offset with
      | none => .failure (.pairOutOfBounds word offset heap.size)
      | some (first, second) =>
        .andThen (.entry { offset, depth }) <|
        .andThen (.piece "(") <|
        .andThen (transcript heap limit first (depth + 1)) <|
        .andThen (.piece ", ") <|
        .andThen (transcript heap limit second (depth + 1)) (.piece ")")
  | kind => .piece kind.text
termination_by limit - depth

namespace Text.Numeral

/-- The pieces of an integer join to its decimal numeral. -/
theorem join_signedPieces (n : Int) : String.join (signedPieces n) = toString n := by
  cases n with
  | ofNat n =>
    have hn : ¬ (Int.ofNat n < 0) := Int.not_lt.2 (Int.natCast_nonneg n)
    rw [signedPieces, if_neg hn, String.join_cons, String.join_nil, String.append_empty]
    rfl
  | negSucc n =>
    rw [signedPieces, if_pos (Int.negSucc_lt_zero n), String.join_cons, String.join_cons,
      String.join_nil, String.append_empty]
    rfl

/-- Zeros in pieces of their own join to a row of zeros. -/
theorem join_replicate_zero (count : Nat) :
    String.join (List.replicate count "0") = String.ofList (List.replicate count '0') := by
  rw [← String.toList_inj, String.toList_join, String.toList_ofList, List.flatMap_replicate]
  simp

/-- The pieces of a number of 32 bits join to eight digits behind the mark. -/
theorem join_hexPieces (n : UInt32) :
    String.join (hexPieces n) =
      "0x" ++ String.ofList ((Nat.toDigits 16 n.toNat).leftpad 8 '0') := by
  rw [hexPieces, List.cons_append, String.join_cons, String.join_append, join_replicate_zero,
    String.join_cons, String.join_nil, String.append_empty, List.leftpad, String.ofList_append]

end Text.Numeral

/-- The pieces of a word that is no pair join to its text. -/
theorem Word.Kind.join_pieces (kind : Word.Kind) : String.join kind.pieces = kind.text := by
  match kind with
  | .int value => exact Numeral.join_signedPieces value.toInt
  | .closure | .bool true | .bool false | .pair _ => rfl
  | .invalid bits =>
    rw [pieces, String.join_cons, Numeral.join_hexPieces, ← String.append_assoc]
    rfl

/-! ## The four cases of a transcript -/

section
variable {heap : Heap} {limit depth : Nat} {word first second : Word} {offset : UInt32}

/-- A scalar is one piece. -/
theorem transcript_of_scalar (hscalar : ∀ offset, word.kind ≠ .pair offset) :
    transcript heap limit word depth = .piece word.kind.text := by
  rw [transcript]
  cases hkind : word.kind with
  | pair offset => exact absurd hkind (hscalar offset)
  | int _ | closure | bool _ | invalid _ => rfl

/-- A pair at the limit is a fault, wherever it points. -/
theorem transcript_of_le (hkind : word.kind = .pair offset) (hdepth : limit ≤ depth) :
    transcript heap limit word depth = .failure (.depthExceeded limit) := by
  rw [transcript]
  simp only [hkind, hdepth, ↓reduceIte]

/-- A pair within the limit and outside the heap is a fault with the size of the heap. -/
theorem transcript_of_outside (hkind : word.kind = .pair offset) (hdepth : depth < limit)
    (hpair : heap.pair? offset = none) :
    transcript heap limit word depth = .failure (.pairOutOfBounds word offset heap.size) := by
  rw [transcript]
  simp only [hkind, Nat.not_le.2 hdepth, ↓reduceIte, hpair]

/-- Any other pair is entered, with its elements between brackets. -/
theorem transcript_of_pair (hkind : word.kind = .pair offset) (hdepth : depth < limit)
    (hpair : heap.pair? offset = some (first, second)) :
    transcript heap limit word depth =
      (.andThen (.entry { offset, depth }) <|
        .andThen (.piece "(") <|
        .andThen (transcript heap limit first (depth + 1)) <|
        .andThen (.piece ", ") <|
        .andThen (transcript heap limit second (depth + 1)) (.piece ")")) := by
  rw [transcript]
  simp only [hkind, Nat.not_le.2 hdepth, ↓reduceIte, hpair]

/-- The fault of a pair is that of its first element, or else that of its second. -/
theorem fault?_transcript_of_pair (hkind : word.kind = .pair offset) (hdepth : depth < limit)
    (hpair : heap.pair? offset = some (first, second)) :
    (transcript heap limit word depth).fault? =
      (transcript heap limit first (depth + 1)).fault?.or
        (transcript heap limit second (depth + 1)).fault? := by
  rw [transcript_of_pair hkind hdepth hpair, Transcript.fault?_brackets]

/-- The text of a pair without a fault has those of its elements in brackets. -/
theorem text_transcript_of_pair (hkind : word.kind = .pair offset) (hdepth : depth < limit)
    (hpair : heap.pair? offset = some (first, second))
    (hfirst : (transcript heap limit first (depth + 1)).fault? = none)
    (hsecond : (transcript heap limit second (depth + 1)).fault? = none) :
    (transcript heap limit word depth).text =
      "(" ++ (transcript heap limit first (depth + 1)).text ++ ", " ++
        (transcript heap limit second (depth + 1)).text ++ ")" := by
  rw [transcript_of_pair hkind hdepth hpair, Transcript.text_andThen (Transcript.fault?_entry _),
    Transcript.text_andThen (Transcript.fault?_piece _), Transcript.text_andThen hfirst,
    Transcript.text_andThen (Transcript.fault?_piece _), Transcript.text_andThen hsecond]
  simp only [Transcript.text_entry, Transcript.text_piece, String.empty_append,
    String.append_assoc]

end

/-! ## Rendering follows the transcript -/

/-- The descent follows the transcript, along its recursion. -/
theorem follows_descend (heap : Heap) (limit : Nat) (word : Word) (depth : Nat) :
    Drafting.Follows (descend heap limit word depth) (transcript heap limit word depth) := by
  fun_induction descend heap limit word depth with
  | case1 word depth offset hkind hdepth =>
    rw [transcript_of_le hkind hdepth]
    exact Drafting.follows_throw _
  | case2 word depth offset hkind hdepth hpair =>
    rw [transcript_of_outside hkind (Nat.lt_of_not_le hdepth) hpair]
    exact Drafting.follows_throw _
  | case3 word depth offset hkind hdepth first second hpair ihFirst ihSecond =>
    rw [transcript_of_pair hkind (Nat.lt_of_not_le hdepth) hpair]
    exact (Drafting.follows_enter _).andThen <| (Drafting.follows_write _).andThen <|
      ihFirst.andThen <| (Drafting.follows_write _).andThen <|
      ihSecond.andThen (Drafting.follows_write _)
  | case4 word depth hscalar =>
    rw [transcript_of_scalar hscalar, ← Word.Kind.join_pieces]
    exact Drafting.follows_writeAll _

section
variable {word : Word} {heap : Heap} {limit : DepthLimit}

/-- With room for the text, rendering puts the transcript into the draft and gives the word back. -/
theorem render_eq_outcome {draft : Draft}
    (hroom : draft.Holds (transcript heap (limit.levels heap.size) word 0).text) :
    render word heap limit draft =
      (transcript heap (limit.levels heap.size) word 0).outcome word draft := by
  rw [render_eq_descend]
  have h := (follows_descend heap (limit.levels heap.size) word 0).whole draft hroom
  cases hfault : (transcript heap (limit.levels heap.size) word 0).fault? with
  | none =>
    rw [Transcript.outcome_of_none hfault] at h ⊢
    exact Drafting.andThen_eq h
  | some fault =>
    rw [Transcript.outcome_of_some hfault] at h ⊢
    exact Drafting.andThen_eq_error h

section
variable {text : String} {visits : Array Visit} {fault : Fault}

/-- Rendering into a draft without a bound ends in the fault of the transcript. -/
theorem exists_render_eq_error
    (hfault : (transcript heap (limit.levels heap.size) word 0).fault? = some fault) :
    ∃ draft, render word heap limit { text, visits } = .error fault draft := by
  rw [render_eq_outcome (Draft.holds_of_room_eq_none _ rfl _), Transcript.outcome_of_some hfault]
  exact ⟨_, rfl⟩

/-- On a draft without a bound, there is no other fault. -/
theorem exists_render_eq_error_iff :
    (∃ draft, render word heap limit { text, visits } = .error fault draft) ↔
      (transcript heap (limit.levels heap.size) word 0).fault? = some fault := by
  refine ⟨fun ⟨draft, h⟩ => ?_, exists_render_eq_error⟩
  rw [render_eq_outcome (Draft.holds_of_room_eq_none _ rfl _), Transcript.outcome] at h
  split at h
  · cases h
  · next hsome =>
    cases h
    exact hsome

/-- On a draft without a bound, rendering succeeds when its transcript has no fault. -/
theorem exists_render_eq_ok_iff :
    (∃ draft, render word heap limit { text, visits } = .ok word draft) ↔
      (transcript heap (limit.levels heap.size) word 0).fault? = none := by
  rw [render_eq_outcome (Draft.holds_of_room_eq_none _ rfl _), Transcript.outcome]
  cases (transcript heap (limit.levels heap.size) word 0).fault? with
  | none => simp
  | some fault => simp

end

/-- Without room for the text, rendering ends because the draft is full. -/
theorem exists_render_eq_draftFull {draft : Draft}
    (hroom : ¬ draft.Holds (transcript heap (limit.levels heap.size) word 0).text) :
    ∃ draft', render word heap limit draft = .error .draftFull draft' := by
  obtain ⟨room, hroom, hlt⟩ := draft.exists_room_of_not_holds hroom
  obtain ⟨visits, hcut⟩ :=
    (follows_descend heap (limit.levels heap.size) word 0).cut draft room hroom hlt
  rw [render_eq_descend, Drafting.andThen_eq_error hcut]
  exact ⟨_, rfl⟩

/-- Rendering that succeeds puts a transcript without a fault into the draft. -/
theorem of_render_eq_ok {draft draft' : Draft} {given : Word}
    (h : render word heap limit draft = .ok given draft') :
    (transcript heap (limit.levels heap.size) word 0).fault? = none ∧
      draft' = (transcript heap (limit.levels heap.size) word 0).appended draft := by
  by_cases hroom : draft.Holds (transcript heap (limit.levels heap.size) word 0).text
  · rw [render_eq_outcome hroom, Transcript.outcome] at h
    split at h
    · next hnone =>
      cases h
      exact ⟨hnone, rfl⟩
    · cases h
  · obtain ⟨full, hfull⟩ := exists_render_eq_draftFull hroom
    cases hfull.symm.trans h

/-- A fault of rendering that does not come from the draft is the fault of the transcript. -/
theorem fault?_of_render_eq_error {draft draft' : Draft} {fault : Fault}
    (h : render word heap limit draft = .error fault draft') (hfault : fault ≠ .draftFull) :
    (transcript heap (limit.levels heap.size) word 0).fault? = some fault := by
  by_cases hroom : draft.Holds (transcript heap (limit.levels heap.size) word 0).text
  · rw [render_eq_outcome hroom, Transcript.outcome] at h
    split at h
    · cases h
    · next hsome =>
      cases h
      exact hsome
  · obtain ⟨full, hfull⟩ := exists_render_eq_draftFull hroom
    cases hfull.symm.trans h
    exact absurd rfl hfault

end

/-- On a draft without a bound, rendering writes the text of the transcript behind what the draft
holds, enters the pairs of the transcript, and ends in its fault; if there is none, it gives back
the word it was given. -/
theorem render_eq_transcript (word : Word) (heap : Heap) (limit : DepthLimit) (text : String)
    (visits : Array Visit) :
    render word heap limit { text, visits } =
      let t := transcript heap (limit.levels heap.size) word 0
      let draft : Draft := { text := text ++ t.text, visits := visits ++ t.visits.toArray }
      match t.fault? with
      | none => .ok word draft
      | some fault => .error fault draft := by
  rw [render_eq_outcome (Draft.holds_of_room_eq_none _ rfl _)]
  rfl

/-- On a draft without a bound, rendering leaves the whole transcript. -/
theorem left_render (word : Word) (heap : Heap) (limit : DepthLimit) (text : String)
    (visits : Array Visit) :
    Drafting.left (render word heap limit { text, visits }) =
      { text := text ++ (transcript heap (limit.levels heap.size) word 0).text
        visits := visits ++ (transcript heap (limit.levels heap.size) word 0).visits.toArray } := by
  rw [render_eq_outcome (Draft.holds_of_room_eq_none _ rfl _), Transcript.outcome]
  split <;> rfl

end TaggedValues
