import TaggedValues.Proofs.Heap.Storing
import TaggedValues.Proofs.Render.Unfolding

/-!
# Values built from the bottom up

A program that makes a pair only of scalars and of pairs it has made already, each at a place of its
own, builds values from the bottom up. `Heap.Builds` lists the pairs made that way with the trees
they stand for.

Each pair that is made is recorded with its elements (`Heap.Records`): it stands on the heap as it
was put, and its elements are scalars or pairs recorded before. A pair that is put at an offset of
its own leaves the record as it is, so the record holds after any number of pairs
(`Heap.Builds.records`). A recorded pair stands for its tree (`Heap.Records.unfolds`), and so every
pair made has the text of its tree, then and later (`Heap.Builds.toText_made`).
-/

namespace TaggedValues

namespace Heap

/-- The word is a scalar or one of the pairs made so far, and stands for the tree. -/
def Available (made : List (Word × Tree)) (word : Word) (tree : Tree) : Prop :=
  word.kind.scalar? = some tree ∨ (word, tree) ∈ made

/-- Putting pairs at different offsets of the first heap, each of available words, leads to the
second heap; the pairs made are listed with their trees, the latest first. -/
inductive Builds (start : Heap) : Heap → List (Word × Tree) → Prop where
  | start : Builds start start []
  | pair {heap heap' : Heap} {made : List (Word × Tree)} {offset : UInt32}
    {first second pair : Word} {firstTree secondTree : Tree} :
    Builds start heap made →
    Available made first firstTree → Available made second secondTree →
    (∀ earlier ∈ made, earlier.1.kind ≠ .pair offset) →
    heap.putPair offset first second = (heap', some pair) →
    Builds start heap' ((pair, .pair firstTree secondTree) :: made)

section
variable {start heap heap' : Heap} {made later : List (Word × Tree)} {word : Word} {tree : Tree}

/-- What is available stays so when more is made. -/
theorem Available.mono {made' : List (Word × Tree)} (h : Available made word tree)
    (hsub : made ⊆ made') : Available made' word tree :=
  h.imp_right fun hmem => hsub hmem

/-- The word refers to a pair on the heap whose elements are available and stand for those of the
tree. -/
def Stands (heap : Heap) (made : List (Word × Tree)) (word : Word) (tree : Tree) : Prop :=
  ∃ (offset : UInt32) (first second : Word) (firstTree secondTree : Tree),
    word.kind = .pair offset ∧ heap.pair? offset = some (first, second) ∧
      Available made first firstTree ∧ Available made second secondTree ∧
      tree = .pair firstTree secondTree

/-- Everything that was made stands on the heap. -/
def Records (heap : Heap) (made : List (Word × Tree)) : Prop :=
  ∀ entry ∈ made, heap.Stands made entry.1 entry.2

/-- A recorded pair stands for its tree. -/
theorem Records.unfolds (h : heap.Records made) (hmem : (word, tree) ∈ made) :
    heap.Unfolds word tree := by
  induction tree generalizing word with
  | pair firstTree secondTree ihFirst ihSecond =>
    obtain ⟨offset, first, second, _, _, hkind, hpair, hfirst, hsecond, heq⟩ := h _ hmem
    cases heq
    exact .pair hkind hpair (hfirst.elim .scalar ihFirst) (hsecond.elim .scalar ihSecond)
  | int _ | closure | bool _ | invalid _ =>
    obtain ⟨_, _, _, _, _, _, _, _, _, heq⟩ := h _ hmem
    cases heq

/-- One more pair, put at an offset of its own, leaves the record as it is and goes into it. -/
theorem Records.putPair {offset : UInt32} {first second pair : Word} {firstTree secondTree : Tree}
    (h : heap.Records made) (hfirst : Available made first firstTree)
    (hsecond : Available made second secondTree)
    (hfresh : ∀ earlier ∈ made, earlier.1.kind ≠ .pair offset)
    (hput : heap.putPair offset first second = (heap', some pair)) :
    heap'.Records ((pair, .pair firstTree secondTree) :: made) := by
  have hsub : made ⊆ (pair, .pair firstTree secondTree) :: made := List.subset_cons_self ..
  intro entry hentry
  rcases List.mem_cons.1 hentry with rfl | hentry
  · obtain ⟨⟨haligned, -⟩, rfl, -⟩ := putPair_eq_some_iff.1 hput
    exact ⟨offset, first, second, firstTree, secondTree, Word.kind_ofOffset haligned,
      pair?_putPair hput, hfirst.mono hsub, hsecond.mono hsub, rfl⟩
  · obtain ⟨offset', first', second', firstTree', secondTree', hkind, hpair, hfirst', hsecond',
      htree⟩ := h entry hentry
    refine ⟨offset', first', second', firstTree', secondTree', hkind, ?_, hfirst'.mono hsub,
      hsecond'.mono hsub, htree⟩
    have hne : offset' ≠ offset := by
      rintro rfl
      exact hfresh entry hentry hkind
    rw [pair?_putPair_of_ne hput (Word.aligned_of_kind hkind) hne, hpair]

/-- What was built is recorded. -/
theorem Builds.records (h : start.Builds heap made) : heap.Records made := by
  induction h with
  | start => exact nofun
  | pair _ hfirst hsecond hfresh hput ih => exact ih.putPair hfirst hsecond hfresh hput

/-- Every pair that was made has the text of its tree under the limit given by the heap, and the
same text after any pairs made later. -/
theorem Builds.toText_made (h : start.Builds heap made) :
    (∀ entry ∈ made, entry.1.toText heap = .ok entry.2.text) ∧
      ∀ (heap' : Heap) (later : List (Word × Tree)), start.Builds heap' (later ++ made) →
        ∀ entry ∈ made, entry.1.toText heap' = entry.1.toText heap := by
  refine ⟨fun entry hentry => (h.records.unfolds hentry).toText_eq, ?_⟩
  intro heap' later h' entry hentry
  have hentry' : entry ∈ later ++ made := List.mem_append_right later hentry
  rw [(h'.records.unfolds hentry').toText_eq, (h.records.unfolds hentry).toText_eq]

end

/-- A pair that holds an earlier one in both elements shows its text twice. -/
theorem Builds.toText_shared :
    let inner : Tree := .pair (.int 1) (.bool true)
    let heap : Heap :=
      ⟨#[⟨9⟩, ⟨9⟩, ⟨0⟩, ⟨0⟩, ⟨0⟩, ⟨0⟩, ⟨0⟩, ⟨0⟩, ⟨2⟩, ⟨0xFFFFFFFF⟩]⟩
    (zeroed 10).Builds heap [(⟨1⟩, .pair inner inner), (⟨9⟩, inner)] ∧
      (⟨1⟩ : Word).toText heap = .ok "((1, true), (1, true))" := by
  intro inner heap
  have hput : (zeroed 10).putPair 8 ⟨2⟩ ⟨0xFFFFFFFF⟩ =
    (((zeroed 10).putPair 8 ⟨2⟩ ⟨0xFFFFFFFF⟩).1, some ⟨9⟩) := by decide
  have hput' : ((zeroed 10).putPair 8 ⟨2⟩ ⟨0xFFFFFFFF⟩).1.putPair 0 ⟨9⟩ ⟨9⟩ =
    (heap, some ⟨1⟩) := by decide
  have hinner := Builds.pair .start (.inl rfl) (.inl rfl) nofun hput
  have hbuilds : (zeroed 10).Builds heap [(⟨1⟩, .pair inner inner), (⟨9⟩, inner)] :=
    .pair hinner (.inr (.head _)) (.inr (.head _)) (by decide) hput'
  exact ⟨hbuilds, hbuilds.toText_made.1 _ (.head _)⟩

end Heap

end TaggedValues
