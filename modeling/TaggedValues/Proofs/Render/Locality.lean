import TaggedValues.Proofs.Heap.History
import TaggedValues.Proofs.Heap.Storing
import TaggedValues.Proofs.Render.Limit

/-!
# What rendering looks at

Rendering reads a heap at the two words of each pair that the word reaches, and besides it takes
from the heap no more than its size, for a limit that goes by the heap and for the fault of a pair
outside. So on two heaps with the same pairs in these places (`Heap.SamePairs`) the descent does the
same, if they are of one size or if no pair lies outside (`Heap.SamePairs.descend_eq`). Heaps of one
size that agree on the words of these pairs are alike for rendering, and so is a heap before and
after changes that touch none of these words (`render_local`).
-/

namespace TaggedValues

namespace Heap

/-- The two heaps have the same elements, or none, for every pair that the root reaches in the
first. -/
def SamePairs (heap heap' : Heap) (root : Word) : Prop :=
  ∀ word offset, heap.Reaches root word → word.kind = .pair offset →
    heap'.pair? offset = heap.pair? offset

/-- The two heaps are of one size and hold the same words at both elements of every pair that the
root reaches in the first. -/
structure AgreesFrom (heap heap' : Heap) (root : Word) : Prop where
  /-- The heaps are of one size. -/
  size : heap'.size = heap.size
  /-- The words at both elements are the same, inside the heap or not. -/
  elements : ∀ word offset, heap.Reaches root word → word.kind = .pair offset →
    heap'.get? offset = heap.get? offset ∧ heap'.get? (offset + 1) = heap.get? (offset + 1)

section
variable {heap heap' : Heap} {root word part : Word} {limit depth : Nat}

/-- Heaps with the same pairs below a word have the same below its elements. -/
theorem SamePairs.element (h : heap.SamePairs heap' root) (he : heap.Element root part) :
    heap.SamePairs heap' part :=
  fun word offset hr => h word offset (.trans (.element (.refl heap root) he) hr)

/-- Heaps that agree on the reached elements have the same pairs. -/
theorem AgreesFrom.samePairs (h : heap.AgreesFrom heap' root) : heap.SamePairs heap' root := by
  intro word offset hreaches hkind
  obtain ⟨hfirst, hsecond⟩ := h.elements word offset hreaches hkind
  exact pair?_congr (Word.aligned_of_kind hkind) hfirst hsecond

/-- Descent does the same on heaps with the same pairs. Of their sizes it tells no more than the
fault of a pair outside. -/
theorem SamePairs.descend_eq (h : heap.SamePairs heap' word)
    (hsize : heap'.size = heap.size ∨ heap.Closed word) :
    descend heap' limit word depth = descend heap limit word depth := by
  fun_induction descend heap limit word depth with
  | case1 word depth offset hkind hdepth =>
    rw [descend]
    simp only [hkind, hdepth, ↓reduceIte]
  | case2 word depth offset hkind hdepth hpair =>
    have hpair' := (h word offset (.refl heap word) hkind).trans hpair
    have hsize : heap'.size = heap.size :=
      hsize.resolve_right (not_closed_of_outside hkind hpair)
    rw [descend]
    simp only [hkind, hdepth, ↓reduceIte, hpair', hsize]
  | case3 word depth offset hkind hdepth first second hpair ihFirst ihSecond =>
    have hpair' := (h word offset (.refl heap word) hkind).trans hpair
    have hfirst : heap.Element word first := .first hkind hpair
    have hsecond : heap.Element word second := .second hkind hpair
    rw [descend]
    simp only [hkind, hdepth, ↓reduceIte, hpair',
      ihFirst (h.element hfirst) (hsize.imp_right (·.element hfirst)),
      ihSecond (h.element hsecond) (hsize.imp_right (·.element hsecond))]
  | case4 word depth hscalar =>
    rw [descend]
    cases hkind : word.kind with
    | pair offset => exact absurd hkind (hscalar offset)
    | int _ | closure | bool _ | invalid _ => rfl

/-- Rendering under one limit does the same on heaps with the same pairs. -/
theorem SamePairs.render_eq (h : heap.SamePairs heap' word)
    (hsize : heap'.size = heap.size ∨ heap.Closed word) {limit' : DepthLimit} {limit : DepthLimit}
    (hlevels : limit'.levels heap'.size = limit.levels heap.size) (draft : Draft) :
    render word heap' limit' draft = render word heap limit draft := by
  rw [render_eq_descend, render_eq_descend, hlevels, h.descend_eq hsize]

/-- Changes that touch no element of a pair that the root reaches leave a heap that agrees with the
one before. -/
theorem agreesFrom_foldl_apply {changes : List Change}
    (h : ∀ change ∈ changes, ∀ word offset, heap.Reaches root word → word.kind = .pair offset →
      ¬ change.Touches heap.size offset ∧ ¬ change.Touches heap.size (offset + 1)) :
    heap.AgreesFrom (changes.foldl Change.apply heap) root where
  size := size_foldl_apply heap changes
  elements word offset hreaches hkind :=
    ⟨get?_foldl_apply_of_not_touches fun change hmem => (h change hmem word offset hreaches hkind).1,
      get?_foldl_apply_of_not_touches fun change hmem => (h change hmem word offset hreaches hkind).2⟩

end

end Heap

/-- Rendering depends on nothing but what the word reaches: on two heaps of one size that hold the
same words at both elements of every pair that it reaches, it writes the same text, enters the same
pairs and ends in the same way, under every limit and in every draft. So it does before and after
changes of the heap that touch none of these elements. -/
theorem render_local (word : Word) (heap : Heap) :
    (∀ heap' : Heap, heap.AgreesFrom heap' word → ∀ limit draft,
      render word heap' limit draft = render word heap limit draft) ∧
    ∀ changes : List Heap.Change,
      (∀ change ∈ changes, ∀ part offset, heap.Reaches word part → part.kind = .pair offset →
        ¬ change.Touches heap.size offset ∧ ¬ change.Touches heap.size (offset + 1)) →
      ∀ limit draft,
        render word (changes.foldl Heap.Change.apply heap) limit draft =
          render word heap limit draft := by
  have hagrees (heap' : Heap) (h : heap.AgreesFrom heap' word) (limit : DepthLimit)
      (draft : Draft) : render word heap' limit draft = render word heap limit draft :=
    h.samePairs.render_eq (.inl h.size) (by rw [h.size]) draft
  exact ⟨hagrees, fun changes h => hagrees _ (Heap.agreesFrom_foldl_apply h)⟩

/-- A word stored behind a pair, a pair put at a free place, and two changes that are refused at the
end of the heap, where the value has a pair that lies half outside. -/
theorem render_local_half_outside :
    let heap := (Heap.zeroed 17).fill [⟨2⟩, ⟨17⟩]
    let changes : List Heap.Change :=
      [.write 2 ⟨6⟩, .putPair 8 ⟨1⟩ ⟨9⟩, .write 17 ⟨6⟩, .putPair 16 ⟨2⟩ ⟨4⟩]
    let ending : EStateM.Result Fault Draft Word :=
      .error (.pairOutOfBounds ⟨17⟩ 16 17) { text := "(1, ", visits := #[⟨0, 0⟩] }
    changes.foldl Heap.Change.apply heap ≠ heap ∧
      render ⟨1⟩ heap .byHeap {} = ending ∧
      render ⟨1⟩ (changes.foldl Heap.Change.apply heap) .byHeap {} = ending := by
  intro heap changes ending
  have hpair : heap.pair? 0 = some (⟨2⟩, ⟨17⟩) := by decide
  have hreached (part : Word) (h : heap.Reaches ⟨1⟩ part) :
      part = ⟨1⟩ ∨ part = ⟨2⟩ ∨ part = ⟨17⟩ := by
    refine h.induction (p := (fun part => part = ⟨1⟩ ∨ part = ⟨2⟩ ∨ part = ⟨17⟩))
      (.inl rfl) fun word part hword he => ?_
    rcases hword with rfl | rfl | rfl
    · exact .inr ((Heap.element_iff rfl hpair).1 he)
    · obtain ⟨offset, hkind⟩ := he.isPair
      cases hkind
    · obtain ⟨offset, hkind, hlt⟩ := he.exists_offset
      cases hkind
      exact absurd hlt (by decide)
  have htouches : ∀ change ∈ changes, ∀ part offset, heap.Reaches ⟨1⟩ part →
      part.kind = .pair offset →
      ¬ change.Touches heap.size offset ∧ ¬ change.Touches heap.size (offset + 1) := by
    intro change hchange part offset hreaches hkind
    rcases hreached part hreaches with rfl | rfl | rfl
    · cases hkind
      revert change
      decide
    · cases hkind
    · cases hkind
      revert change
      decide
  have hrender : render ⟨1⟩ heap .byHeap {} = ending := by
    unfold ending heap
    cbv
  refine ⟨by decide, hrender, ?_⟩
  rw [(render_local ⟨1⟩ heap).2 changes htouches, hrender]

end TaggedValues
