import TaggedValues.Heap.History
import TaggedValues.Proofs.Machine

/-!
# Heaps over their whole life

A change does not move the bounds of a heap and stores at certain offsets only (`Heap.size_apply`,
`Heap.get?_apply`), so a whole history leaves at each offset what was stored there last
(`Heap.get?_foldl_apply`). An operation that is refused stores nothing and leaves the heap as it was
(`Heap.Change.Refused.apply_eq`, `Heap.Change.Refused.stored?_eq_none`), and to load an image is one
more change (`Heap.load_eq_fill`). So a heap is a fixed array over its whole life: its size never
changes, and each offset reads the last word stored there, or zero (`Heap.fixed_over_history`).
-/

namespace TaggedValues

namespace Heap

section
variable {heap : Heap} {change : Change} {offset : UInt32}

/-! ## Changes that are refused -/

/-- A write is refused outside the heap. -/
theorem Change.refused_write_iff {word : Word} :
    (Change.write offset word).Refused heap ↔ heap.size ≤ offset.toNat := by
  rw [Change.Refused, write_snd, decide_eq_false_iff_not, Nat.not_lt]

/-- A pair is refused where it is not aligned or does not fit. -/
theorem Change.refused_putPair_iff {first second : Word} :
    (Change.putPair offset first second).Refused heap ↔
      ¬ (offset % 8 = 0 ∧ offset.toNat + 1 < heap.size) := by
  rw [Change.Refused, putPair_eq]
  split <;> simp_all

/-- A change that is refused leaves every word as it was. -/
theorem Change.Refused.apply_eq (h : change.Refused heap) : change.apply heap = heap := by
  cases change with
  | write place word =>
    have hplace : ¬ place.toNat < heap.words.size := Nat.not_lt.2 (refused_write_iff.1 h)
    rw [Change.apply, Heap.write, dif_neg hplace]
  | putPair place first second =>
    rw [Change.apply, putPair_eq, if_neg (refused_putPair_iff.1 h)]
  | poke | fill => exact h.elim

/-- A change that is refused stores nothing. -/
theorem Change.Refused.stored?_eq_none (h : change.Refused heap)
    (hoffset : offset.toNat < heap.size) : change.stored? heap.size offset = none := by
  cases change with
  | write place word =>
    have hne : offset ≠ place := by
      rintro rfl
      exact absurd hoffset (Nat.not_lt.2 (refused_write_iff.1 h))
    exact if_neg hne
  | putPair place first second => exact if_neg (refused_putPair_iff.1 h)
  | poke | fill => exact h.elim

/-! ## Histories -/

@[simp] theorem size_foldl_apply (heap : Heap) (changes : List Change) :
    (changes.foldl Change.apply heap).size = heap.size := by
  induction changes generalizing heap with
  | nil => rfl
  | cons change rest ih => rw [List.foldl_cons, ih, size_apply]

/-- After a history an offset reads what the latest change that stored there put, or else what it
read before. -/
theorem get?_foldl_apply (heap : Heap) {changes : List Change}
    (h : ∀ change ∈ changes, change.HasOffsets) (hoffset : offset.toNat < heap.size) :
    (changes.foldl Change.apply heap).get? offset =
      (changes.reverse.findSome? (·.stored? heap.size offset)).or (heap.get? offset) := by
  induction changes generalizing heap with
  | nil => rfl
  | cons change rest ih =>
    obtain ⟨hchange, hrest⟩ := List.forall_mem_cons.1 h
    have hsize := size_apply heap change
    rw [List.foldl_cons, ih (change.apply heap) hrest (hsize.symm ▸ hoffset), hsize,
      get?_apply heap hchange hoffset, ← Option.or_assoc, List.reverse_cons,
      List.findSome?_append]
    simp

/-- An offset that a change does not touch reads what it read before. For this the words of a change
need not have offsets of their own, as those that have none touch every offset. -/
theorem get?_apply_of_not_touches (h : ¬ change.Touches heap.size offset) :
    (change.apply heap).get? offset = heap.get? offset := by
  by_cases hoffset : offset.toNat < heap.size
  · have hnone : change.stored? heap.size offset = none :=
      Decidable.byContradiction fun hne => h ⟨hoffset, hne⟩
    have hoffsets : change.HasOffsets := by
      cases change with
      | fill words =>
        have hle : words.length ≤ offset.toNat := List.getElem?_eq_none_iff.1 hnone
        exact Nat.le_trans hle (Nat.le_of_lt offset.toNat_lt)
      | write | poke | putPair => trivial
    rw [get?_apply heap hoffsets hoffset, hnone, Option.none_or]
  · have hle : heap.size ≤ offset.toNat := Nat.le_of_not_lt hoffset
    rw [get?_eq_none_iff.2 hle, get?_eq_none_iff, size_apply]
    exact hle

/-- An offset that no change of a history touches reads what it read before. -/
theorem get?_foldl_apply_of_not_touches {changes : List Change}
    (h : ∀ change ∈ changes, ¬ change.Touches heap.size offset) :
    (changes.foldl Change.apply heap).get? offset = heap.get? offset := by
  induction changes generalizing heap with
  | nil => rfl
  | cons change rest ih =>
    obtain ⟨hchange, hrest⟩ := List.forall_mem_cons.1 h
    rw [List.foldl_cons, ih (by rwa [size_apply]), get?_apply_of_not_touches hchange]

@[simp] theorem size_after (size : Nat) (changes : List Change) :
    (after size changes).size = size := by
  rw [after, size_foldl_apply, size_zeroed]

/-- Outside a heap there is nothing, whatever its history. -/
theorem get?_after_eq_none {size : Nat} {changes : List Change} (h : size ≤ offset.toNat) :
    (after size changes).get? offset = none := by
  rwa [get?_eq_none_iff, size_after]

/-- Inside the heap an offset reads what was stored there last. -/
theorem get?_after {size : Nat} {changes : List Change}
    (h : ∀ change ∈ changes, change.HasOffsets) (hoffset : offset.toNat < size) :
    (after size changes).get? offset = some (lastStored size offset changes) := by
  have hzeroed : offset.toNat < (zeroed size).size := by rwa [size_zeroed]
  rw [after, get?_foldl_apply _ h hzeroed, size_zeroed, get?_zeroed, if_pos hoffset, lastStored]
  cases changes.reverse.findSome? (·.stored? size offset) <;> rfl

/-- A change is one more of the history. -/
theorem after_concat (size : Nat) (changes : List Change) (change : Change) :
    after size (changes ++ [change]) = change.apply (after size changes) := by
  rw [after, List.foldl_append]
  rfl

end

/-- To load an image is to fill the heap in use with its words, whether they fit or not. -/
theorem load_eq_fill (image : Image) (machine : Machine) :
    ∃ machine', Work.load image machine = .ok image.result machine' ∧
      machine'.heap = (Change.fill image.heap).apply machine.heap :=
  ⟨_, Work.load_eq image machine, rfl⟩

/-- A heap is a fixed array over its whole life: its size never changes, an offset outside reads
nothing, and an offset inside reads what was stored there last, or zero, unless a change put more
words than there are offsets. An operation that is refused leaves every word as it was and counts
for nothing, and to load an image is one more operation of the history. -/
theorem fixed_over_history (size : Nat) (changes : List Change) :
    (after size changes).size = size ∧
      (∀ offset : UInt32, size ≤ offset.toNat → (after size changes).get? offset = none) ∧
      ((∀ change ∈ changes, change.HasOffsets) → ∀ offset : UInt32, offset.toNat < size →
        (after size changes).get? offset = some (lastStored size offset changes)) ∧
      (∀ change : Change, change.Refused (after size changes) →
        after size (changes ++ [change]) = after size changes ∧
          ∀ offset : UInt32, offset.toNat < size → change.stored? size offset = none) ∧
      ∀ (image : Image) (machine : Machine), machine.heap = after size changes →
        ∃ machine', Work.load image machine = .ok image.result machine' ∧
          machine'.heap = after size (changes ++ [.fill image.heap]) := by
  refine ⟨size_after size changes, fun _ => get?_after_eq_none, fun h _ => get?_after h,
    fun change hrefused => ⟨?_, ?_⟩, ?_⟩
  · rw [after_concat]
    exact hrefused.apply_eq
  · intro offset hoffset
    have hafter : offset.toNat < (after size changes).size := by rwa [size_after]
    have hnone := hrefused.stored?_eq_none hafter
    rwa [size_after] at hnone
  · intro image machine hheap
    obtain ⟨machine', hload, hfill⟩ := load_eq_fill image machine
    rw [hheap, ← after_concat] at hfill
    exact ⟨machine', hload, hfill⟩

/-- A pair over the words of an image, half of it stored over, and a pair refused at the end of the
heap, where only its first element would fit. -/
theorem fixed_over_history_refused :
    let changes : List Change :=
      [.fill [⟨20⟩, ⟨40⟩, ⟨60⟩], .putPair 0 ⟨2⟩ ⟨4⟩, .poke 1 ⟨6⟩, .write 9 ⟨8⟩]
    let refused : Change := .putPair 8 ⟨10⟩ ⟨12⟩
    let image : Image := { result := ⟨1⟩, heap := List.replicate 10 ⟨14⟩ }
    (after 9 changes).size = 9 ∧ (∀ change ∈ changes, change.HasOffsets) ∧
      [0, 1, 2, 3, 8, 9].map (after 9 changes).get? =
        [some ⟨2⟩, some ⟨6⟩, some ⟨60⟩, some ⟨0⟩, some ⟨0⟩, none] ∧
      refused.Refused (after 9 changes) ∧
      after 9 (changes ++ [refused]) = after 9 changes ∧ refused.stored? 9 8 = none ∧
      ∃ machine', Work.load image { heap := after 9 changes } = .ok ⟨1⟩ machine' ∧
        machine'.heap = after 9 (changes ++ [.fill image.heap]) := by
  intro changes refused image
  obtain ⟨hsize, houtside, hinside, hrefused, hload⟩ := fixed_over_history 9 changes
  have hoffsets : ∀ change ∈ changes, change.HasOffsets := by decide
  have hrefusal : refused.Refused (after 9 changes) := by decide
  obtain ⟨hsame, hnone⟩ := hrefused refused hrefusal
  refine ⟨hsize, hoffsets, ?_, hrefusal, hsame, hnone 8 (by decide), hload image _ rfl⟩
  simp (disch := decide) only [List.map_cons, List.map_nil, hinside hoffsets, houtside]
  decide

end Heap

end TaggedValues
