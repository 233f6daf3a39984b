import TaggedValues.Heap

/-!
# The history of a heap

A `Heap.Change` is one of the operations that store words, and `Heap.Change.stored?` says what it
stores at an offset, if anything. After a change each offset reads what the change stored there, or
else what it read before (`Heap.get?_apply`), so after a history of changes it reads what the latest
of them stored there (`Heap.lastStored`). This holds as long as no change puts more words than there
are offsets (`Heap.Change.HasOffsets`). An operation may be refused (`Heap.Change.Refused`), and it
may leave an offset alone (`Heap.Change.Touches`).
-/

namespace TaggedValues

namespace Heap

/-- An operation that stores words. -/
inductive Change where
  /-- Puts a word. -/
  | write (offset : UInt32) (word : Word)
  /-- Puts a word without asking. -/
  | poke (offset : UInt32) (word : Word)
  /-- Puts the two elements of a pair. -/
  | putPair (offset : UInt32) (first second : Word)
  /-- Puts words at the offsets from 0 on. -/
  | fill (words : List Word)
deriving DecidableEq, Repr

/-- The heap after a change. -/
def Change.apply (heap : Heap) : Change → Heap
  | write offset word => (heap.write offset word).1
  | poke offset word => heap.poke offset word
  | putPair offset first second => (heap.putPair offset first second).1
  | fill words => heap.fill words

/-- The heap reports that the operation failed. -/
def Change.Refused (heap : Heap) : Change → Prop
  | write offset word => (heap.write offset word).2 = false
  | putPair offset first second => (heap.putPair offset first second).2 = none
  | poke _ _ | fill _ => False

instance (heap : Heap) : (change : Change) → Decidable (change.Refused heap)
  | .write _ _ => inferInstanceAs (Decidable (_ = false))
  | .putPair _ _ _ => inferInstanceAs (Decidable (_ = none))
  | .poke _ _ | .fill _ => inferInstanceAs (Decidable False)

/-- There is an offset for each word that the change puts. -/
def Change.HasOffsets : Change → Prop
  | fill words => words.length ≤ UInt32.size
  | write _ _ | poke _ _ | putPair _ _ _ => True

instance : (change : Change) → Decidable change.HasOffsets
  | .fill _ => inferInstanceAs (Decidable (_ ≤ _))
  | .write _ _ | .poke _ _ | .putPair _ _ _ => inferInstanceAs (Decidable True)

/-- What a change of a heap of `size` words stores at an offset inside it, if anything. A pair is
stored whole or not at all. -/
def Change.stored? (size : Nat) (offset : UInt32) : Change → Option Word
  | write place word | poke place word => if offset = place then some word else none
  | putPair place first second =>
    if place % 8 = 0 ∧ place.toNat + 1 < size then
      if offset = place then some first else if offset = place + 1 then some second else none
    else none
  | fill words => words[offset.toNat]?

/-- The change stores a word at an offset inside a heap of `size` words. -/
def Change.Touches (size : Nat) (offset : UInt32) (change : Change) : Prop :=
  offset.toNat < size ∧ change.stored? size offset ≠ none

instance (size : Nat) (offset : UInt32) (change : Change) :
    Decidable (change.Touches size offset) :=
  inferInstanceAs (Decidable (_ ∧ _))

/-- What the latest of the changes that stored at an offset put there, or zero if none did. -/
def lastStored (size : Nat) (offset : UInt32) (changes : List Change) : Word :=
  (changes.reverse.findSome? (·.stored? size offset)).getD ⟨0⟩

/-- The heap of `size` words, all zero at first, after a history of changes. -/
def after (size : Nat) (changes : List Change) : Heap :=
  changes.foldl Change.apply (zeroed size)

@[simp] theorem size_apply (heap : Heap) (change : Change) :
    (change.apply heap).size = heap.size := by
  cases change <;> simp [Change.apply, poke_eq_write]

/-- An offset reads what a change stored there, or else what it read before. -/
theorem get?_apply (heap : Heap) {change : Change} (h : change.HasOffsets) {offset : UInt32}
    (hoffset : offset.toNat < heap.size) :
    (change.apply heap).get? offset = (change.stored? heap.size offset).or (heap.get? offset) := by
  cases change with
  | write place word | poke place word =>
    simp only [Change.apply, Change.stored?, poke_eq_write, get?_write]
    grind
  | putPair place first second =>
    simp only [Change.apply, Change.stored?, putPair_eq]
    split
    · simp only [get?_write, size_write]
      grind
    · simp
  | fill words =>
    have hlength : words.length ≤ UInt32.size := h
    simp only [Change.apply, Change.stored?, get?_fill heap hlength]
    grind

end Heap

end TaggedValues
