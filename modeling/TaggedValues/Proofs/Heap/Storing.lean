import TaggedValues.Heap
import TaggedValues.Proofs.Word

/-!
# Pairs that are stored

The two words of a pair at a multiple of 8 are the words read at its offset and behind it
(`Heap.pair?_eq_some_iff_get?`), and words of different pairs are different. So a pair that is put
on a heap is read back (`Heap.pair?_putPair`) and every other pair stays as it was
(`Heap.pair?_putPair_of_ne`).
-/

namespace TaggedValues

namespace Heap

section
variable {heap heap' : Heap} {offset other : UInt32} {first second pair : Word}

/-- A pair at an aligned offset is what a load from it and one from the next offset read. -/
theorem pair?_eq_some_iff_get? (h : offset % 8 = 0) :
    heap.pair? offset = some (first, second) ↔
      heap.get? offset = some first ∧ heap.get? (offset + 1) = some second := by
  rw [pair?_eq_some_iff, get?, get?, toNat_succ_of_aligned h]

/-- Two heaps with the same words at a multiple of 8 and behind it have the same pair there. -/
theorem pair?_congr (h : offset % 8 = 0) (hfirst : heap'.get? offset = heap.get? offset)
    (hsecond : heap'.get? (offset + 1) = heap.get? (offset + 1)) :
    heap'.pair? offset = heap.pair? offset := by
  ext ⟨first, second⟩
  rw [pair?_eq_some_iff_get? h, pair?_eq_some_iff_get? h, hfirst, hsecond]

/-- A pair is put where its offset is a multiple of 8 and both elements lie inside the heap. -/
theorem putPair_eq_some_iff :
    heap.putPair offset first second = (heap', some pair) ↔
      (offset % 8 = 0 ∧ offset.toNat + 1 < heap.size) ∧ pair = ⟨offset + 1⟩ ∧
        heap' = ((heap.write offset first).1.write (offset + 1) second).1 := by
  rw [putPair_eq]
  split
  · next h =>
    rw [Prod.mk.injEq, Option.some.injEq]
    exact ⟨fun ⟨hheap, hpair⟩ => ⟨h, hpair.symm, hheap.symm⟩,
      fun ⟨_, hpair, hheap⟩ => ⟨hheap.symm, hpair.symm⟩⟩
  · next h =>
    refine ⟨fun heq => ?_, fun ⟨hfits, _⟩ => absurd hfits h⟩
    cases heq

/-- What an offset reads after a pair was put. -/
theorem get?_putPair (h : heap.putPair offset first second = (heap', some pair)) :
    heap'.get? other =
      if other = offset + 1 then some second else if other = offset then some first
      else heap.get? other := by
  obtain ⟨⟨haligned, hlt⟩, -, rfl⟩ := putPair_eq_some_iff.1 h
  have hsecond : (offset + 1).toNat < heap.size := by rwa [toNat_succ_of_aligned haligned]
  have hfirst : offset.toNat < heap.size := Nat.lt_of_succ_lt hlt
  rw [get?_write, size_write, get?_write]
  simp only [hfirst, hsecond, and_true]

/-- A pair that was put is read back. -/
theorem pair?_putPair (h : heap.putPair offset first second = (heap', some pair)) :
    heap'.pair? offset = some (first, second) := by
  have haligned := (putPair_eq_some_iff.1 h).1.1
  have hne : offset ≠ offset + 1 := by
    intro heq
    have := toNat_succ_of_aligned haligned
    rw [← heq] at this
    omega
  rw [pair?_eq_some_iff_get? haligned, get?_putPair h, get?_putPair h, if_neg hne, if_pos rfl,
    if_pos rfl]
  exact ⟨rfl, rfl⟩

/-- Every other pair stays as it was. -/
theorem pair?_putPair_of_ne (h : heap.putPair offset first second = (heap', some pair))
    (hother : other % 8 = 0) (hne : other ≠ offset) : heap'.pair? other = heap.pair? other := by
  have haligned := (putPair_eq_some_iff.1 h).1.1
  obtain ⟨hne₁, hne₂, hne₃⟩ := ne_of_aligned haligned hother hne
  apply pair?_congr hother
  · rw [get?_putPair h, if_neg hne₁, if_neg hne]
  · rw [get?_putPair h, if_neg hne₃, if_neg hne₂]

end

end Heap

end TaggedValues
