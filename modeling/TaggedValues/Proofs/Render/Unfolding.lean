import TaggedValues.Proofs.Render.Limit
import TaggedValues.Tree

/-!
# Rendering and trees

A word that stands for a tree reaches no pair outside the heap, and nests its pairs as deeply as the
tree (`Heap.Unfolds.shallow`). Under a limit that does not cut it, its text is the text of the tree,
wherever on the heap the pairs lie (`Heap.Unfolds.text_transcript`), and the limit given by the heap
never does (`Heap.Unfolds.toText_eq`). Conversely, what is rendered without a fault stands for a
tree (`exists_unfolds`).
-/

namespace TaggedValues

open Text

/-- The text of an integer is its numeral. -/
theorem Tree.text_int (value : Int32) :
    (Tree.int value).text = String.join (Numeral.signedPieces value.toInt) := rfl

/-- The text of a pair has those of its elements in brackets. -/
theorem Tree.text_pair (first second : Tree) :
    (Tree.pair first second).text = "(" ++ first.text ++ ", " ++ second.text ++ ")" := rfl

/-- The text of an invalid word names its bits. -/
theorem Tree.text_invalid (bits : UInt32) :
    (Tree.invalid bits).text = "Unknown value: " ++ String.join (Numeral.hexPieces bits) := rfl

/-! ## Scalars -/

section
variable {word : Word} {tree : Tree}

/-- A word that is no pair is written as the tree it stands for. -/
theorem Word.Kind.text_of_scalar? {kind : Word.Kind} (h : kind.scalar? = some tree) :
    kind.text = tree.text := by
  cases kind with
  | int value =>
    cases h
    exact (Numeral.join_signedPieces value.toInt).symm
  | closure =>
    cases h
    rfl
  | bool value =>
    cases h
    cases value <;> rfl
  | pair offset => cases h
  | invalid bits =>
    cases h
    rw [Tree.text_invalid, Numeral.join_hexPieces, ← String.append_assoc]
    rfl

/-- A word with the tree of a scalar is no pair. -/
theorem Word.kind_ne_pair_of_scalar? (h : word.kind.scalar? = some tree) (offset : UInt32) :
    word.kind ≠ .pair offset := by
  intro hkind
  rw [hkind] at h
  cases h

/-- A word that is no pair has the tree of a scalar. -/
theorem Word.exists_scalar? (hscalar : ∀ offset, word.kind ≠ .pair offset) :
    ∃ tree, word.kind.scalar? = some tree := by
  cases hkind : word.kind with
  | pair offset => exact absurd hkind (hscalar offset)
  | int _ | closure | bool _ | invalid _ => exact ⟨_, rfl⟩

end

/-! ## Words that stand for trees -/

namespace Heap

section
variable {heap : Heap} {word : Word} {tree : Tree}

/-- What unfolds to a tree reaches no pair outside the heap. -/
theorem Unfolds.closed (h : heap.Unfolds word tree) : heap.Closed word := by
  induction h with
  | scalar hscalar => exact closed_of_scalar (Word.kind_ne_pair_of_scalar? hscalar)
  | pair hkind hpair _ _ ihFirst ihSecond => exact (closed_iff hkind hpair).2 ⟨ihFirst, ihSecond⟩

/-- Pairs nest as deeply as the tree does. -/
theorem Unfolds.shallow (h : heap.Unfolds word tree) : heap.Shallow tree.height word := by
  induction h with
  | scalar hscalar => exact shallow_of_scalar (Word.kind_ne_pair_of_scalar? hscalar) _
  | @pair _ _ _ _ firstTree secondTree hkind hpair _ _ ihFirst ihSecond =>
    rw [Tree.height, Nat.add_comm, shallow_succ_iff hkind hpair]
    exact ⟨ihFirst.mono (Nat.le_max_left ..), ihSecond.mono (Nat.le_max_right ..)⟩

/-- What unfolds to a tree reaches no pair from within itself. -/
theorem Unfolds.acyclic (h : heap.Unfolds word tree) : heap.Acyclic word :=
  h.shallow.acyclic

/-- What a word that stands for a tree writes is the text of the tree, unless the limit cuts it. -/
theorem Unfolds.text_transcript {limit depth : Nat} (h : heap.Unfolds word tree)
    (hfault : (transcript heap limit word depth).fault? = none) :
    (transcript heap limit word depth).text = tree.text := by
  induction h generalizing depth with
  | scalar hscalar =>
    rw [transcript_of_scalar (Word.kind_ne_pair_of_scalar? hscalar)]
    exact Word.Kind.text_of_scalar? hscalar
  | @pair word first second offset firstTree secondTree hkind hpair _ _ ihFirst ihSecond =>
    have hdepth : depth < limit := by
      refine Nat.lt_of_not_le fun hle => ?_
      rw [transcript_of_le hkind hle] at hfault
      cases hfault
    rw [fault?_transcript_of_pair hkind hdepth hpair, Option.or_eq_none_iff] at hfault
    obtain ⟨hfirst, hsecond⟩ := hfault
    rw [text_transcript_of_pair hkind hdepth hpair hfirst hsecond, ihFirst hfirst,
      ihSecond hsecond, Tree.text_pair]

/-- Under the limit given by the heap, the text of a word is that of the tree it stands for. -/
theorem Unfolds.toText_eq (h : heap.Unfolds word tree) : word.toText heap = .ok tree.text := by
  have hfault := fault?_byHeap_eq_none_iff.2 ⟨h.closed, h.acyclic⟩
  exact toText_eq_ok_iff_of_transcript.2 ⟨hfault, h.text_transcript hfault⟩

end

end Heap

/-- What is rendered without a fault stands for a tree. -/
theorem exists_unfolds {heap : Heap} {word : Word} {limit depth : Nat}
    (hfault : (transcript heap limit word depth).fault? = none) :
    ∃ tree, heap.Unfolds word tree := by
  fun_induction transcript heap limit word depth with
  | case1 | case2 => cases hfault
  | case3 word depth offset hkind hdepth first second hpair ihFirst ihSecond =>
    rw [Transcript.fault?_brackets, Option.or_eq_none_iff] at hfault
    obtain ⟨firstTree, hfirst⟩ := ihFirst hfault.1
    obtain ⟨secondTree, hsecond⟩ := ihSecond hfault.2
    exact ⟨.pair firstTree secondTree, .pair hkind hpair hfirst hsecond⟩
  | case4 word depth hscalar =>
    obtain ⟨tree, htree⟩ := Word.exists_scalar? hscalar
    exact ⟨tree, .scalar htree⟩

end TaggedValues
