import TaggedValues.Proofs.Heap.Storing
import TaggedValues.Proofs.Render.FaultPlace
import TaggedValues.Proofs.Word.Making

/-!
# Which pairs there are

Whether there can be a pair at an offset is tested three times: a heap tests for room when the pair
is put, the format tests the offset when the word is made that refers to it, and rendering tests for
both elements when the pair is entered (`Word.enters_iff`). All draw the same line
(`Heap.putPair_agrees_with_render`). What passes the tests of the heap cannot be refused halfway, so
a pair is put whole or not at all (`Heap.putPairStepwise_eq`).
-/

namespace TaggedValues

namespace Word

/-- Rendering the word enters the pair at the offset before any other. -/
def Enters (word : Word) (heap : Heap) (limit : DepthLimit) (offset : UInt32) : Prop :=
  (Drafting.left (render word heap limit {})).visits[0]? = some { offset, depth := 0 }

/-- Rendering the word ends because the pair at the offset, to which the word refers, lies outside
the heap. -/
def FallsOutside (word : Word) (heap : Heap) (limit : DepthLimit) (offset : UInt32) : Prop :=
  ∃ draft, render word heap limit {} = .error (.pairOutOfBounds word offset heap.size) draft

section
variable {word : Word} {heap : Heap} {limit : DepthLimit} {offset : UInt32}

/-- The pair of a word is entered when it lies inside the heap and any pair may be entered. -/
theorem enters_iff (hkind : word.kind = .pair offset) (hlimit : 0 < limit.levels heap.size) :
    word.Enters heap limit offset ↔ offset.toNat + 1 < heap.size := by
  rw [Enters, left_render]
  cases hpair : heap.pair? offset with
  | none =>
    rw [transcript_of_outside hkind hlimit hpair]
    refine ⟨nofun, fun hlt => ?_⟩
    exact absurd hlt (Nat.not_lt.2 (Heap.pair?_eq_none_iff.1 hpair))
  | some pair =>
    rw [transcript_of_pair hkind hlimit hpair,
      Transcript.andThen_of_none (Transcript.fault?_entry _)]
    refine ⟨fun _ => Heap.lt_size_of_pair? hpair, fun _ => ?_⟩
    simp [Transcript.entry]

/-- The pair of a word is reported when it lies outside the heap, and no pair further down is
mistaken for it. -/
theorem fallsOutside_iff (hkind : word.kind = .pair offset)
    (hlimit : 0 < limit.levels heap.size) :
    word.FallsOutside heap limit offset ↔ heap.size ≤ offset.toNat + 1 := by
  rw [FallsOutside, exists_render_eq_error_iff, ← Heap.pair?_eq_none_iff]
  constructor
  · intro hfault
    obtain ⟨place, hstops, -⟩ := Heap.exists_stopsAt (Nat.zero_le _) hfault
    cases hstops with
    | outside _ _ hout _ => exact hout
  · intro hpair
    rw [transcript_of_outside hkind hlimit hpair]
    rfl

end

end Word

namespace Heap

/-- Puts a pair one step after the other. Each step may be refused, and then what those before it
stored is left. -/
def putPairStepwise (heap : Heap) (offset : UInt32) (first second : Word) : Heap × Option Word :=
  if heap.size ≤ offset.toNat + 1 then (heap, none)
  else
    match Word.ofPair? offset with
    | none => (heap, none)
    | some pair =>
      match heap.write offset first with
      | (heap, false) => (heap, none)
      | (heap, true) =>
        match heap.write (offset + 1) second with
        | (heap, false) => (heap, none)
        | (heap, true) => (heap, some pair)

/-- The second heap has the elements of a pair at the offset and behind it, and is otherwise like
the first. -/
structure DiffersByPair (heap heap' : Heap) (offset : UInt32) (first second : Word) : Prop where
  /-- The first element is at the offset. -/
  first : heap'.words[offset.toNat]? = some first
  /-- The second element is behind it. -/
  second : heap'.words[offset.toNat + 1]? = some second
  /-- All other words are the same. -/
  others : ∀ i, i ≠ offset.toNat → i ≠ offset.toNat + 1 → heap'.words[i]? = heap.words[i]?

section
variable {heap heap' : Heap} {offset : UInt32} {first second word : Word}

/-- The stores of a pair are not refused once its offset has passed the tests, so a pair is put whole
or not at all. -/
theorem putPairStepwise_eq (heap : Heap) (offset : UInt32) (first second : Word) :
    heap.putPairStepwise offset first second = heap.putPair offset first second := by
  unfold putPairStepwise putPair
  split
  · rfl
  · next hroom =>
    cases hpair : Word.ofPair? offset with
    | none => rfl
    | some pair =>
      have hlt : offset.toNat + 1 < heap.size := Nat.lt_of_not_le hroom
      have hsucc := toNat_succ_of_aligned (Word.aligned_of_kind (Word.ofPair?_eq_some_iff.1 hpair))
      have hsecond : (offset + 1).toNat < (heap.write offset first).1.size := by
        rwa [size_write, hsucc]
      rw [write_of_lt (Nat.lt_of_succ_lt hlt) first]
      dsimp only
      rw [write_of_lt hsecond second]

/-- A pair is put where its offset is a multiple of 8 and both elements lie inside the heap. -/
theorem isSome_putPair_iff :
    (heap.putPair offset first second).2.isSome ↔
      offset.toNat % 8 = 0 ∧ offset.toNat + 1 < heap.size := by
  rw [← Word.aligned_iff, putPair_eq]
  split <;> simp_all

/-- A pair that is refused stores nothing. -/
theorem putPair_of_none (h : (heap.putPair offset first second).2 = none) :
    (heap.putPair offset first second).1 = heap := by
  rw [putPair_eq] at h ⊢
  split
  · next hfits =>
    rw [if_pos hfits] at h
    cases h
  · rfl

/-- A pair put into a heap makes it differ by this pair. -/
theorem differsByPair_of_putPair (h : heap.putPair offset first second = (heap', some word)) :
    heap.DiffersByPair heap' offset first second := by
  obtain ⟨⟨haligned, hlt⟩, -, rfl⟩ := putPair_eq_some_iff.1 h
  have hsucc := toNat_succ_of_aligned haligned
  have hlt' : offset.toNat + 1 < heap.words.size := hlt
  refine ⟨?_, ?_, fun i hfirst hsecond => ?_⟩
  · rw [words_write, words_write, hsucc, Array.getElem?_setIfInBounds_ne (Nat.succ_ne_self _),
      Array.getElem?_setIfInBounds_self_of_lt (Nat.lt_of_succ_lt hlt')]
  · rw [words_write, words_write, hsucc, Array.getElem?_setIfInBounds_self_of_lt]
    rwa [Array.size_setIfInBounds]
  · rw [words_write, words_write, hsucc, Array.getElem?_setIfInBounds_ne (Ne.symm hsecond),
      Array.getElem?_setIfInBounds_ne (Ne.symm hfirst)]

/-- The heap, the format and rendering agree on where a pair is. A pair is put just where its offset
is a multiple of 8 with room for both elements, and this is where there is a word for the offset whose
rendering, if it enters any pair, enters the one there and does not report it outside the heap. The
offsets of the elements do not wrap around. A pair is put whole and changes nothing else, and the
word that is given refers to it; or it is refused and changes nothing. -/
theorem putPair_agrees_with_render (heap : Heap) (offset : UInt32) (first second : Word)
    (limit : DepthLimit) (hlimit : 1 ≤ limit.levels heap.size) :
    let put := heap.putPair offset first second
    (put.2.isSome ↔ offset.toNat % 8 = 0 ∧ offset.toNat + 1 < heap.size) ∧
    (put.2.isSome ↔ ∃ word, Word.ofPair? offset = some word ∧ word.Enters heap limit offset ∧
      ¬ word.FallsOutside heap limit offset) ∧
    (offset.toUInt64 + 1).toNat = offset.toNat + 1 ∧
    (∀ word, Word.ofPair? offset = some word → (offset + 1).toNat = offset.toNat + 1 ∧
      (word.Enters heap limit offset ↔ ¬ word.FallsOutside heap limit offset)) ∧
    put = heap.putPairStepwise offset first second ∧
    (∀ word, put.2 = some word → Word.ofPair? offset = some word ∧ word.kind = .pair offset ∧
      word.Enters put.1 limit offset ∧ heap.DiffersByPair put.1 offset first second) ∧
    (put.2 = none → put.1 = heap) := by
  intro put
  have hput : put.2.isSome ↔ offset.toNat % 8 = 0 ∧ offset.toNat + 1 < heap.size :=
    isSome_putPair_iff
  refine ⟨hput, ?_, ?_, ?_, (putPairStepwise_eq ..).symm, ?_, putPair_of_none⟩
  · rw [hput]
    constructor
    · rintro ⟨haligned, hlt⟩
      obtain ⟨word, hword⟩ := Word.exists_ofPair?_iff.2 haligned
      have hkind := Word.ofPair?_eq_some_iff.1 hword
      refine ⟨word, hword, (Word.enters_iff hkind hlimit).2 hlt, ?_⟩
      rw [Word.fallsOutside_iff hkind hlimit]
      exact Nat.not_le.2 hlt
    · rintro ⟨word, hword, henters, -⟩
      have hkind := Word.ofPair?_eq_some_iff.1 hword
      exact ⟨Word.exists_ofPair?_iff.1 ⟨word, hword⟩, (Word.enters_iff hkind hlimit).1 henters⟩
  · have hlt := offset.toNat_lt
    rw [UInt64.toNat_add, UInt32.toNat_toUInt64]
    show (offset.toNat + 1) % 18446744073709551616 = offset.toNat + 1
    omega
  · intro word hword
    have hkind := Word.ofPair?_eq_some_iff.1 hword
    rw [Word.enters_iff hkind hlimit, Word.fallsOutside_iff hkind hlimit, Nat.not_le]
    exact ⟨toNat_succ_of_aligned (Word.aligned_of_kind hkind), Iff.rfl⟩
  · intro word hsome
    have heq : heap.putPair offset first second = (put.1, some word) := Prod.ext rfl hsome
    obtain ⟨⟨haligned, hlt⟩, rfl, -⟩ := putPair_eq_some_iff.1 heq
    have hkind := Word.kind_ofOffset haligned
    have hsize : put.1.size = heap.size := size_putPair heap offset first second
    refine ⟨Word.ofPair?_eq_some_iff.2 hkind, hkind, ?_, differsByPair_of_putPair heq⟩
    rw [← hsize] at hlimit hlt
    exact (Word.enters_iff hkind hlimit).2 hlt

/-- The last words of a heap take a pair that refers to itself. On a heap that ends between them, the
pair is refused. -/
theorem putPair_agrees_with_render_at_end :
    1 ≤ (DepthLimit.fixed 1).levels (zeroed 10).size ∧
      (zeroed 10).putPair 8 ⟨9⟩ ⟨2⟩ =
        (((zeroed 10).putPair 8 ⟨9⟩ ⟨2⟩).1, some ⟨9⟩) ∧
      (⟨9⟩ : Word).Enters (zeroed 10) (.fixed 1) 8 ∧
      (zeroed 10).DiffersByPair ((zeroed 10).putPair 8 ⟨9⟩ ⟨2⟩).1 8 ⟨9⟩ ⟨2⟩ ∧
      (zeroed 9).putPair 8 ⟨9⟩ ⟨2⟩ = (zeroed 9, none) := by
  have hlimit (size : Nat) : 1 ≤ (DepthLimit.fixed 1).levels (zeroed size).size := Nat.le_refl 1
  obtain ⟨hput, hrender, -, -, -, hwhole, -⟩ :=
    putPair_agrees_with_render (zeroed 10) 8 ⟨9⟩ ⟨2⟩ (.fixed 1) (hlimit 10)
  obtain ⟨hput', -, -, -, -, -, hrefused⟩ :=
    putPair_agrees_with_render (zeroed 9) 8 ⟨9⟩ ⟨2⟩ (.fixed 1) (hlimit 9)
  obtain ⟨word, hword, henters, -⟩ := hrender.1 (hput.2 (by simp))
  obtain rfl : ⟨9⟩ = word := Option.some.inj hword
  have hnone : ((zeroed 9).putPair 8 ⟨9⟩ ⟨2⟩).2 = none := by
    rw [← Option.not_isSome_iff_eq_none, hput']
    simp
  have hsome : ((zeroed 10).putPair 8 ⟨9⟩ ⟨2⟩).2 = some ⟨9⟩ := by decide
  exact ⟨hlimit 10, Prod.ext rfl hsome, henters, (hwhole _ hsome).2.2.2,
    Prod.ext (hrefused hnone) hnone⟩

end

end Heap

end TaggedValues
