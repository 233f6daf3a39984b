import TaggedValues.Word

/-!
# Heaps

The `Heap` of a program is a fixed block of words, all zero at first. Words are read and written by
offset, and a pair is put at an offset that is a multiple of 8, where its two elements take the
first two of eight words. An operation that is refused leaves every word as it was, and none changes
the size.

The view of a heap is `Heap.get?`.
-/

namespace TaggedValues

/-- A fixed block of words. -/
structure Heap where
  /-- The words by offset. -/
  words : Array Word
deriving DecidableEq, Repr

namespace Heap

/-- The number of words a program gets when nothing else is asked for. -/
def defaultSize : Nat := 100000

/-- The most bytes that one block of memory may have. -/
def maxBytes : Nat := 0x7FFFFFFFFFFFFFFF

/-- Whether one block of memory can hold so many words, of four bytes each. -/
def Allocatable (size : Nat) : Prop := 4 * size ≤ maxBytes

instance (size : Nat) : Decidable (Allocatable size) :=
  inferInstanceAs (Decidable (4 * size ≤ maxBytes))

/-- A heap of the given size, all zero. -/
def zeroed (size : Nat) : Heap := ⟨Array.replicate size ⟨0⟩⟩

/-- The number of words. -/
def size (heap : Heap) : Nat := heap.words.size

/-- The word at `offset`, or `none` outside the heap. -/
def get? (heap : Heap) (offset : UInt32) : Option Word := heap.words[offset.toNat]?

/-- The two elements of the pair at `offset`, or `none` unless both lie inside the heap. -/
def pair? (heap : Heap) (offset : UInt32) : Option (Word × Word) :=
  match heap.words[offset.toNat]?, heap.words[offset.toNat + 1]? with
  | some first, some second => some (first, second)
  | _, _ => none

/-- The words from offset `start` up to, not including, `stop`, or `none` unless these bounds are in
order and inside the heap. -/
def slice? (heap : Heap) (start stop : Nat) : Option (Array Word) :=
  if start ≤ stop ∧ stop ≤ heap.size then some (heap.words.extract start stop) else none

/-- Puts a word at `offset` and says whether that lies inside the heap. -/
def write (heap : Heap) (offset : UInt32) (word : Word) : Heap × Bool :=
  if h : offset.toNat < heap.words.size then (⟨heap.words.set offset.toNat word h⟩, true)
  else (heap, false)

/-- Puts a word at `offset` without asking, as native code does. Outside the heap nothing
happens. -/
def poke (heap : Heap) (offset : UInt32) (word : Word) : Heap :=
  ⟨heap.words.setIfInBounds offset.toNat word⟩

/-- Puts the two elements of a pair at `offset` and gives the word that refers to them. Refused
unless the offset is a multiple of 8 with room for both elements. -/
def putPair (heap : Heap) (offset : UInt32) (first second : Word) : Heap × Option Word :=
  if heap.size ≤ offset.toNat + 1 then (heap, none)
  else
    match Word.ofPair? offset with
    | none => (heap, none)
    | some pair =>
      let heap := (heap.write offset first).1
      ((heap.write (offset + 1) second).1, some pair)

/-- Puts the words at the offsets from 0 on, as far as the heap reaches. The count of the offsets
starts again from 0 behind the last one. -/
def fill (heap : Heap) (words : List Word) : Heap :=
  go heap 0 words
where
  /-- Puts the remaining words at the offsets from `offset` on. -/
  go (heap : Heap) (offset : UInt32) : List Word → Heap
    | [] => heap
    | word :: rest =>
      match heap.write offset word with
      | (heap, true) => go heap (offset + 1) rest
      | (heap, false) => heap

/-- The heap of `size` words that begins with the given ones, as far as it reaches, and is zero
behind them. -/
def padded (size : Nat) (words : List Word) : Heap :=
  ⟨Array.ofFn fun offset : Fin size => words.getD offset ⟨0⟩⟩

/-! ## What the operations do to the view -/

/-- The offset behind one that is not the last. -/
theorem toNat_succ {offset : UInt32} (h : offset.toNat + 1 < UInt32.size) :
    (offset + 1).toNat = offset.toNat + 1 := by
  rw [UInt32.toNat_add]
  exact Nat.mod_eq_of_lt h

@[simp] theorem size_zeroed (size : Nat) : (zeroed size).size = size := Array.size_replicate

/-- A fresh heap reads zero everywhere inside it. -/
theorem get?_zeroed (size : Nat) (offset : UInt32) :
    (zeroed size).get? offset = if offset.toNat < size then some ⟨0⟩ else none := by
  simp [get?, zeroed, Array.getElem?_replicate]

/-- Nothing is read at or above the size. -/
theorem get?_eq_none_iff {heap : Heap} {offset : UInt32} :
    heap.get? offset = none ↔ heap.size ≤ offset.toNat := by
  simp [get?, size]

/-- A pair can be read when both of its elements can. -/
theorem pair?_eq_some_iff {heap : Heap} {offset : UInt32} {first second : Word} :
    heap.pair? offset = some (first, second) ↔
      heap.words[offset.toNat]? = some first ∧ heap.words[offset.toNat + 1]? = some second := by
  unfold pair?
  split <;> simp_all

/-- A pair cannot be read when its second element lies outside the heap. -/
theorem pair?_eq_none_iff {heap : Heap} {offset : UInt32} :
    heap.pair? offset = none ↔ heap.size ≤ offset.toNat + 1 := by
  rw [← Option.not_isSome_iff_eq_none, Option.isSome_iff_exists]
  constructor
  · intro h
    apply Nat.le_of_not_lt
    intro hlt
    exact h ⟨(_, _), pair?_eq_some_iff.2
      ⟨Array.getElem?_eq_getElem (Nat.lt_of_succ_lt hlt), Array.getElem?_eq_getElem hlt⟩⟩
  · rintro hle ⟨⟨first, second⟩, h⟩
    have ⟨hlt, _⟩ := Array.getElem?_eq_some_iff.1 (pair?_eq_some_iff.1 h).2
    exact absurd hle (Nat.not_le.2 hlt)

/-- A pair that can be read lies inside the heap. -/
theorem lt_size_of_pair? {heap : Heap} {offset : UInt32} {pair : Word × Word}
    (h : heap.pair? offset = some pair) : offset.toNat + 1 < heap.size := by
  refine Nat.lt_of_not_le fun hle => ?_
  rw [pair?_eq_none_iff.2 hle] at h
  cases h

/-- The words after a write, which leaves them alone outside the heap. -/
theorem words_write (heap : Heap) (offset : UInt32) (word : Word) :
    (heap.write offset word).1.words = heap.words.setIfInBounds offset.toNat word := by
  unfold write Array.setIfInBounds
  split <;> rfl

@[simp] theorem size_write (heap : Heap) (offset : UInt32) (word : Word) :
    (heap.write offset word).1.size = heap.size := by
  unfold write size
  split <;> simp

/-- A word written is read back, and nothing else changes. -/
theorem get?_write (heap : Heap) (offset other : UInt32) (word : Word) :
    (heap.write offset word).1.get? other =
      if other = offset ∧ offset.toNat < heap.size then some word else heap.get? other := by
  unfold write get? size
  split <;> grind [UInt32.toNat_inj]

/-- A write says whether its offset lies inside the heap. -/
theorem write_snd (heap : Heap) (offset : UInt32) (word : Word) :
    (heap.write offset word).2 = decide (offset.toNat < heap.size) := by
  unfold write size
  split <;> simp_all

/-- A write inside the heap is not refused. -/
theorem write_of_lt {heap : Heap} {offset : UInt32} (h : offset.toNat < heap.size) (word : Word) :
    heap.write offset word = ((heap.write offset word).1, true) :=
  Prod.ext rfl ((heap.write_snd offset word).trans (decide_eq_true h))

/-- Storing without asking does what writing does. -/
theorem poke_eq_write (heap : Heap) (offset : UInt32) (word : Word) :
    heap.poke offset word = (heap.write offset word).1 :=
  congrArg mk (words_write heap offset word).symm

/-- A pair is put where its offset is a multiple of 8 and both elements lie inside the heap. -/
theorem putPair_eq (heap : Heap) (offset : UInt32) (first second : Word) :
    heap.putPair offset first second =
      if offset % 8 = 0 ∧ offset.toNat + 1 < heap.size then
        (((heap.write offset first).1.write (offset + 1) second).1, some ⟨offset + 1⟩)
      else (heap, none) := by
  unfold putPair Word.ofPair?
  grind

@[simp] theorem size_putPair (heap : Heap) (offset : UInt32) (first second : Word) :
    (heap.putPair offset first second).1.size = heap.size := by
  rw [putPair_eq]
  split <;> simp

/-- Filling keeps the size. -/
theorem size_fill_go (heap : Heap) (offset : UInt32) (words : List Word) :
    (fill.go heap offset words).size = heap.size := by
  fun_induction fill.go heap offset words with
  | case1 => rfl
  | case2 heap offset word rest heap' hwrite ih =>
    rw [ih, ← size_write heap offset word, hwrite]
  | case3 heap offset word rest heap' hwrite =>
    rw [← size_write heap offset word, hwrite]

@[simp] theorem size_fill (heap : Heap) (words : List Word) : (heap.fill words).size = heap.size :=
  size_fill_go heap 0 words

/-- As long as the count of the offsets does not start again, the offsets from the first one on hold
the words in their order, as far as the heap reaches, and the others hold what they held before. -/
theorem getElem?_fill_go (heap : Heap) (offset : UInt32) (words : List Word)
    (h : offset.toNat + words.length ≤ UInt32.size) (k : Nat) :
    (fill.go heap offset words).words[k]? =
      if offset.toNat ≤ k ∧ k < heap.size ∧ k - offset.toNat < words.length then
        words[k - offset.toNat]?
      else heap.words[k]? := by
  fun_induction fill.go heap offset words with
  | case1 => simp
  | case2 heap offset word rest heap' hwrite ih =>
    have hlt : offset.toNat < heap.size :=
      of_decide_eq_true ((heap.write_snd offset word).symm.trans (congrArg Prod.snd hwrite))
    obtain rfl : (heap.write offset word).1 = heap' := congrArg Prod.fst hwrite
    rw [List.length_cons] at h
    cases rest with
    | nil =>
      -- here the count may start again, but nothing is left
      rw [fill.go, words_write]
      grind [size]
    | cons next rest =>
      have hnext : (offset + 1).toNat = offset.toNat + 1 :=
        toNat_succ (Nat.lt_of_lt_of_le (by simp) h)
      rw [ih (by omega), hnext, size_write, words_write]
      grind [size]
  | case3 heap offset word rest heap' hwrite =>
    have hge : ¬ offset.toNat < heap.size :=
      of_decide_eq_false ((heap.write_snd offset word).symm.trans (congrArg Prod.snd hwrite))
    obtain rfl : (heap.write offset word).1 = heap' := congrArg Prod.fst hwrite
    rw [words_write]
    grind [size]

/-- Words that number the offsets at most are put at their places: inside the heap, the offset `k`
holds the word number `k` of them, if there are so many, and else what it held before. -/
theorem getElem?_fill (heap : Heap) {words : List Word} (h : words.length ≤ UInt32.size) (k : Nat) :
    (heap.fill words).words[k]? =
      if k < heap.size ∧ k < words.length then words[k]? else heap.words[k]? := by
  have h : (0 : UInt32).toNat + words.length ≤ UInt32.size := by simpa using h
  simpa [fill] using getElem?_fill_go heap 0 words h k

/-- The same for the view of the heap. -/
theorem get?_fill (heap : Heap) {words : List Word} (h : words.length ≤ UInt32.size)
    (offset : UInt32) :
    (heap.fill words).get? offset =
      if offset.toNat < heap.size ∧ offset.toNat < words.length then words[offset.toNat]?
      else heap.get? offset :=
  heap.getElem?_fill h offset.toNat

@[simp] theorem size_padded (size : Nat) (words : List Word) : (padded size words).size = size :=
  Array.size_ofFn

/-- Behind the given words a padded heap holds zeros. -/
theorem getElem?_padded {size offset : Nat} (words : List Word) (h : offset < size) :
    (padded size words).words[offset]? = some (words.getD offset ⟨0⟩) := by
  simp [padded, h]

/-- Filling a heap of zeros puts every word at its place, unless the count starts again. -/
theorem fill_zeroed (size : Nat) {words : List Word} (h : words.length ≤ UInt32.size) :
    (zeroed size).fill words = padded size words := by
  have hwords : ((zeroed size).fill words).words = (padded size words).words := by
    refine Array.ext_getElem? fun k => ?_
    rw [getElem?_fill _ h, size_zeroed]
    by_cases hk : k < size
    · have hzero : (zeroed size).words[k]? = some ⟨0⟩ := by simp [zeroed, hk]
      rw [getElem?_padded words hk, hzero, List.getD_eq_getElem?_getD]
      split
      · next hlt => rw [List.getElem?_eq_getElem hlt.2, Option.getD_some]
      · next hge => rw [List.getElem?_eq_none (by omega), Option.getD_none]
    · rw [if_neg fun h => hk h.1, Array.getElem?_eq_none (by simpa [zeroed] using hk),
        Array.getElem?_eq_none (by simpa [padded] using hk)]
  exact congrArg mk hwords

/-- Words that do not reach beyond the heap leave the count behind them, from where it goes on. -/
theorem fill_go_append (heap : Heap) (offset : UInt32) (words rest : List Word)
    (h : offset.toNat + words.length ≤ heap.size) :
    fill.go heap offset (words ++ rest) =
      fill.go (fill.go heap offset words) (offset + UInt32.ofNat words.length) rest := by
  induction words generalizing heap offset with
  | nil => simp [fill.go]
  | cons word words ih =>
    rw [List.length_cons] at h
    have hwrite : heap.write offset word = ((heap.write offset word).1, true) :=
      write_of_lt (by omega) word
    have hle : (offset + 1).toNat ≤ offset.toNat + 1 := by
      rw [UInt32.toNat_add]
      exact Nat.mod_le _ _
    have hcount : offset + UInt32.ofNat (words.length + 1) =
        offset + 1 + UInt32.ofNat words.length := by
      rw [UInt32.ofNat_add, UInt32.add_comm (UInt32.ofNat words.length), UInt32.add_assoc]
      rfl
    rw [List.cons_append, fill.go, fill.go, hwrite, List.length_cons, hcount]
    exact ih _ _ (by rw [size_write]; omega)

/-- Words that number all the offsets bring the count back to 0, so that words behind them take
the places of the first ones. -/
theorem fill_append {heap : Heap} {words : List Word} (hlength : words.length = UInt32.size)
    (hsize : UInt32.size ≤ heap.size) (rest : List Word) :
    heap.fill (words ++ rest) = (heap.fill words).fill rest := by
  have h : (0 : UInt32).toNat + words.length ≤ heap.size := by simpa [hlength] using hsize
  have hback : (0 : UInt32) + UInt32.ofNat words.length = 0 := by
    rw [hlength]
    rfl
  rw [fill, fill_go_append heap 0 words rest h, hback]
  rfl

/-- So the first offsets hold the words behind, and the others what they held before these. -/
theorem getElem?_fill_append {heap : Heap} {words rest : List Word}
    (hlength : words.length = UInt32.size) (hsize : UInt32.size ≤ heap.size)
    (hrest : rest.length ≤ UInt32.size) (k : Nat) :
    (heap.fill (words ++ rest)).words[k]? =
      if k < rest.length then rest[k]? else (heap.fill words).words[k]? := by
  rw [fill_append hlength hsize, getElem?_fill _ hrest, size_fill]
  have hinside (h : k < rest.length) : k < heap.size := by omega
  grind

end Heap

end TaggedValues
