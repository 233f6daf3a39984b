import TaggedValues.Proofs.Heap.Nesting
import TaggedValues.Proofs.Render.Transcript

/-!
# The limit on nesting

Rendering has no fault exactly when every pair that the word reaches lies inside the heap and within
the limit (`fault?_transcript_eq_none_iff`). The limit given by the heap leaves room for as many
pairs as the heap has places, so under it only pairs outside the heap and pairs that contain
themselves are in the way (`exists_toText_eq_ok_iff`).
-/

namespace TaggedValues

section
variable {heap : Heap} {word : Word}

/-- Rendering has no fault when everything the word reaches lies inside the heap and within the
limit. -/
theorem fault?_transcript_eq_none_iff {limit depth : Nat} :
    (transcript heap limit word depth).fault? = none ↔
      heap.Closed word ∧ heap.Shallow (limit - depth) word := by
  fun_induction transcript heap limit word depth with
  | case1 word depth offset hkind hdepth =>
    rw [Nat.sub_eq_zero_of_le hdepth]
    refine ⟨nofun, fun ⟨_, hshallow⟩ => ?_⟩
    exact absurd hshallow (Heap.not_shallow_zero ⟨offset, hkind⟩)
  | case2 word depth offset hkind hdepth hpair =>
    exact ⟨nofun, fun ⟨hclosed, _⟩ => absurd hclosed (Heap.not_closed_of_outside hkind hpair)⟩
  | case3 word depth offset hkind hdepth first second hpair ihFirst ihSecond =>
    have hlevels : limit - depth = limit - (depth + 1) + 1 := by omega
    rw [Transcript.fault?_brackets, Option.or_eq_none_iff, ihFirst, ihSecond, hlevels,
      Heap.closed_iff hkind hpair, Heap.shallow_succ_iff hkind hpair]
    exact and_and_and_comm
  | case4 word depth hscalar =>
    refine ⟨fun _ => ⟨Heap.closed_of_scalar hscalar, Heap.shallow_of_scalar hscalar _⟩, fun _ => ?_⟩
    exact Transcript.fault?_piece _

/-- A word has a text under the limit given by the heap when its transcript has no fault, and then
it is the text of the transcript. -/
theorem toText_eq_ok_iff_of_transcript {text : String} :
    word.toText heap = .ok text ↔
      (transcript heap (DepthLimit.byHeap.levels heap.size) word 0).fault? = none ∧
        (transcript heap (DepthLimit.byHeap.levels heap.size) word 0).text = text := by
  rw [Word.toText, render_eq_outcome (Draft.holds_of_room_eq_none _ rfl _)]
  cases hfault : (transcript heap (DepthLimit.byHeap.levels heap.size) word 0).fault? with
  | none =>
    rw [Transcript.outcome_of_none hfault]
    simp [Transcript.appended]
  | some fault =>
    rw [Transcript.outcome_of_some hfault]
    simp

/-- The limit given by the heap is no less than the number of places for pairs. -/
theorem Heap.places_le (size : Nat) : Heap.places size ≤ size / 8 + 1 := by
  unfold Heap.places
  omega

/-- Under the limit given by the heap, the fault-free words are those that reach neither a pair
outside the heap nor one that contains itself. -/
theorem fault?_byHeap_eq_none_iff :
    (transcript heap (DepthLimit.byHeap.levels heap.size) word 0).fault? = none ↔
      heap.Closed word ∧ heap.Acyclic word := by
  rw [fault?_transcript_eq_none_iff]
  refine and_congr_right fun hclosed => ⟨Heap.Shallow.acyclic, fun hacyclic => ?_⟩
  exact (hacyclic.shallow hclosed).mono (Heap.places_le heap.size)

end

/-- A word has a text under the limit given by the heap exactly when every pair that it reaches lies
inside the heap and none of them contains itself. -/
theorem exists_toText_eq_ok_iff (word : Word) (heap : Heap) :
    (∃ text, word.toText heap = .ok text) ↔ heap.Closed word ∧ heap.Acyclic word := by
  constructor
  · rintro ⟨text, h⟩
    exact fault?_byHeap_eq_none_iff.1 (toText_eq_ok_iff_of_transcript.1 h).1
  · intro h
    exact ⟨_, toText_eq_ok_iff_of_transcript.2 ⟨fault?_byHeap_eq_none_iff.2 h, rfl⟩⟩

end TaggedValues
