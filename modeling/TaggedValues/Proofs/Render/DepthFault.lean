import TaggedValues.Proofs.Render.Unfolding

/-!
# What a fault of nesting says

A pair is checked for its depth before it is checked for its place, so under the limit given by the
heap a word may be found nested too deep although none of its pairs contains itself. That happens
exactly when the pairs on the way down take all places of the heap and the next one lies outside
(`Heap.StraysAt`, `Heap.Acyclic.fault?_byHeap_eq_depthExceeded_iff`). The limit counts a place for
the words left over when the size is divided by 8, so it takes a heap where these have room for a
pair, and an offset behind it to point outside (`Heap.limitTellsCycles_iff`); `Heap.ladder` is such
a heap of each size.
-/

namespace TaggedValues

namespace Heap

/-- From left to right, the first pair outside the heap that belongs to the value of the word lies
inside `depth` pairs. What comes before it is complete. -/
inductive StraysAt (heap : Heap) : Word → Nat → Prop where
  | here {word : Word} {offset : UInt32} :
    word.kind = .pair offset → heap.pair? offset = none → StraysAt heap word 0
  | first {word first second : Word} {offset : UInt32} {depth : Nat} :
    word.kind = .pair offset → heap.pair? offset = some (first, second) →
    StraysAt heap first depth → StraysAt heap word (depth + 1)
  | second {word first second : Word} {offset : UInt32} {depth : Nat} {tree : Tree} :
    word.kind = .pair offset → heap.pair? offset = some (first, second) →
    heap.Unfolds first tree → StraysAt heap second depth → StraysAt heap word (depth + 1)

/-- Whatever the draft, the word is found nested too deep under the limit given by the heap only if
it reaches a pair that contains itself. -/
def LimitTellsCycles (heap : Heap) (word : Word) : Prop :=
  ∀ (draft draft' : Draft) (levels : Nat),
    render word heap .byHeap draft = .error (.depthExceeded levels) draft' →
      ∃ part, heap.Reaches word part ∧ heap.ContainsItself part

section
variable {heap : Heap} {root word : Word} {limit depth : Nat}

/-- What strays leads down to a pair outside the heap. -/
theorem StraysAt.exists_inside (h : heap.StraysAt word depth) :
    ∃ part offset, heap.Inside word depth part ∧ part.kind = .pair offset ∧
      heap.pair? offset = none := by
  induction h with
  | here hkind hpair => exact ⟨_, _, .root, hkind, hpair⟩
  | first hkind hpair _ ih =>
    obtain ⟨part, offset, hinside, hpart⟩ := ih
    exact ⟨part, offset, .of_element (.first hkind hpair) hinside, hpart⟩
  | second hkind hpair _ _ ih =>
    obtain ⟨part, offset, hinside, hpart⟩ := ih
    exact ⟨part, offset, .of_element (.second hkind hpair) hinside, hpart⟩

/-! ## The fault under a limit that leaves room for all places -/

/-- Without a pair that contains itself, a fault of nesting is found at a pair outside the heap. -/
theorem Acyclic.straysAt (hroot : heap.Acyclic root) (hplaces : places heap.size ≤ limit)
    (hinside : heap.Inside root depth word) (hdepth : depth ≤ limit) {levels : Nat}
    (hfault : (transcript heap limit word depth).fault? = some (.depthExceeded levels)) :
    heap.StraysAt word (limit - depth) := by
  fun_induction transcript heap limit word depth with
  | case1 word depth offset hkind hle =>
    rw [Nat.sub_eq_zero_of_le hle]
    refine .here hkind (pair?_eq_none_iff.2 (Nat.le_of_not_lt fun hlt => ?_))
    -- a pair inside the heap would take one place more than there are
    have := hroot.lt_places hinside hkind hlt
    omega
  | case2 => cases hfault
  | case3 word depth offset hkind hle first second hpair ihFirst ihSecond =>
    have hlevels : limit - depth = limit - (depth + 1) + 1 := by omega
    rw [hlevels]
    rw [Transcript.fault?_brackets, Option.or_eq_some_iff] at hfault
    rcases hfault with hfirst | ⟨hfirst, hsecond⟩
    · exact .first hkind hpair
        (ihFirst (hinside.element (.first hkind hpair)) (by omega) hfirst)
    · obtain ⟨tree, htree⟩ := exists_unfolds hfirst
      exact .second hkind hpair htree
        (ihSecond (hinside.element (.second hkind hpair)) (by omega) hsecond)
  | case4 => cases hfault

/-- What strays at the limit is found nested too deep, if no pair in front of it is. -/
theorem StraysAt.fault?_transcript (h : heap.StraysAt word (limit - depth))
    (hroot : heap.Acyclic root) (hplaces : places heap.size ≤ limit)
    (hinside : heap.Inside root depth word) (hdepth : depth ≤ limit) :
    (transcript heap limit word depth).fault? = some (.depthExceeded limit) := by
  generalize hrest : limit - depth = rest at h
  induction h generalizing depth with
  | @here word offset hkind hpair =>
    rw [transcript_of_le hkind (by omega)]
    rfl
  | first hkind hpair _ ih =>
    rw [fault?_transcript_of_pair hkind (by omega) hpair,
      ih (hinside.element (.first hkind hpair)) (by omega) (by omega), Option.some_or]
  | @second word first second offset rest tree hkind hpair htree _ ih =>
    have hfirst : (transcript heap limit first (depth + 1)).fault? = none := by
      refine fault?_transcript_eq_none_iff.2 ⟨htree.closed, ?_⟩
      rintro further part hpart ⟨offset', hkind'⟩
      have hlt := htree.closed part offset' ⟨further, hpart⟩ hkind'
      have := hroot.lt_places ((hinside.element (.first hkind hpair)).trans hpart) hkind' hlt
      omega
    rw [fault?_transcript_of_pair hkind (by omega) hpair, hfirst, Option.none_or,
      ih (hinside.element (.second hkind hpair)) (by omega) (by omega)]

/-- Under the limit given by the heap, a word that reaches no pair that contains itself is found
nested too deep exactly when it strays from the heap inside as many pairs as the limit allows. -/
theorem Acyclic.fault?_byHeap_eq_depthExceeded_iff (hroot : heap.Acyclic root) :
    (∃ levels, (transcript heap (DepthLimit.byHeap.levels heap.size) root 0).fault? =
      some (.depthExceeded levels)) ↔ heap.StraysAt root (heap.size / 8 + 1) := by
  have hplaces : places heap.size ≤ DepthLimit.byHeap.levels heap.size := places_le heap.size
  constructor
  · rintro ⟨levels, hfault⟩
    exact hroot.straysAt hplaces .root (Nat.zero_le _) hfault
  · intro h
    exact ⟨_, StraysAt.fault?_transcript h hroot hplaces .root (Nat.zero_le _)⟩

/-- The limit given by the heap tells cycles for a word, unless the word strays inside as many pairs
as the limit allows and reaches no pair that contains itself. -/
theorem limitTellsCycles_iff_of_word :
    heap.LimitTellsCycles word ↔
      (heap.Acyclic word → ¬ heap.StraysAt word (heap.size / 8 + 1)) := by
  constructor
  · intro htells hacyclic hstrays
    obtain ⟨levels, hfault⟩ := hacyclic.fault?_byHeap_eq_depthExceeded_iff.2 hstrays
    obtain ⟨draft, hrender⟩ : ∃ draft, render word heap .byHeap {} = .error _ draft :=
      exists_render_eq_error hfault
    obtain ⟨part, hreaches, hself⟩ := htells _ _ _ hrender
    exact hacyclic part hreaches hself
  · intro h draft draft' levels hrender
    by_contra hnone
    have hacyclic : heap.Acyclic word := fun part hreaches hself => hnone ⟨part, hreaches, hself⟩
    have hfault := fault?_of_render_eq_error hrender nofun
    exact h hacyclic (hacyclic.fault?_byHeap_eq_depthExceeded_iff.1 ⟨levels, hfault⟩)

/-! ## The sizes at which words can stray that deep -/

/-- Straying inside as many pairs as the limit allows takes a heap with room for a pair in the words
left over, and an offset behind it. -/
theorem Acyclic.size_of_straysAt (hroot : heap.Acyclic root)
    (h : heap.StraysAt root (heap.size / 8 + 1)) :
    2 ≤ heap.size % 8 ∧ heap.size + 8 < 0x100000000 := by
  obtain ⟨part, offset, hinside, hkind, hpair⟩ := h.exists_inside
  have hle := pair?_eq_none_iff.1 hpair
  have hoffset := (Word.kind_eq_pair_iff.1 hkind).1
  have hlt := offset.toNat_lt
  have hplaces := hroot.le_places hinside
  unfold places at hplaces
  omega

end

/-- The word of the pair at place number `place`. -/
def rung (place : Nat) : Word := ⟨UInt32.ofNat (8 * place + 1)⟩

/-- The heap whose pairs each hold the pair at the next place, up to one outside. -/
def ladder (size : Nat) : Heap :=
  ⟨Array.ofFn fun i : Fin size => if i.val % 8 = 0 then rung (i.val / 8 + 1) else ⟨0⟩⟩

section
variable {size place : Nat} {word : Word} {offset : UInt32}

@[simp] theorem size_ladder (size : Nat) : (ladder size).size = size := Array.size_ofFn

/-- The bits of a rung, as long as they do not overflow. -/
theorem toNat_bits_rung (h : 8 * place + 1 < 0x100000000) :
    (rung place).bits.toNat = 8 * place + 1 :=
  UInt32.toNat_ofNat_of_lt' h

/-- As long as it can be written, the word of a rung refers to the pair at its place. -/
theorem kind_rung (place : Nat) (h : 8 * place + 1 < 0x100000000) :
    ∃ offset, (rung place).kind = .pair offset ∧ offset.toNat = 8 * place := by
  have hoffset : (UInt32.ofNat (8 * place)).toNat = 8 * place :=
    UInt32.toNat_ofNat_of_lt' (Nat.lt_of_succ_lt h)
  refine ⟨UInt32.ofNat (8 * place), Word.kind_eq_pair_iff.2 ⟨?_, ?_⟩, hoffset⟩
  · rw [hoffset, Nat.mul_mod_right]
  · rw [toNat_bits_rung h, hoffset]

/-- The pair at a place of the ladder holds the next rung, and a zero. -/
theorem pair?_ladder (hoffset : offset.toNat = 8 * place) (hlt : 8 * place + 1 < size) :
    (ladder size).pair? offset = some (rung (place + 1), ⟨0⟩) := by
  have hsecond : ¬ (8 * place + 1) % 8 = 0 := by omega
  have hplace : 8 * place / 8 = place := Nat.mul_div_cancel_left place (by decide)
  rw [pair?_eq_some_iff, hoffset]
  simp only [ladder, Array.getElem?_ofFn, hlt, Nat.lt_of_succ_lt hlt, ↓reduceDIte, hsecond,
    Nat.mul_mod_right, ↓reduceIte, hplace, and_self]

/-- No pair of a ladder contains itself, as long as the pair outside can be written. -/
theorem acyclic_ladder (hsize : size + 8 < 0x100000000) : (ladder size).Acyclic word := by
  refine acyclic_of_lt fun word part he hpart => ?_
  obtain ⟨offset, hkind, hlt⟩ := he.exists_offset
  rw [size_ladder] at hlt
  obtain ⟨haligned, hbits⟩ := Word.kind_eq_pair_iff.1 hkind
  have hpair : (ladder size).pair? offset = some (rung (offset.toNat / 8 + 1), ⟨0⟩) :=
    pair?_ladder (by omega) (by omega)
  rcases (element_iff hkind hpair).1 he with rfl | rfl
  · rw [UInt32.lt_iff_toNat_lt, toNat_bits_rung (by omega)]
    omega
  · obtain ⟨offset', hkind'⟩ := hpart
    cases hkind'

/-- Each rung strays from the ladder inside all the pairs from its place on. -/
theorem straysAt_ladder (place : Nat) {depth : Nat} (htail : 2 ≤ size % 8)
    (hsize : size + 8 < 0x100000000) (hplace : place + depth = size / 8 + 1) :
    (ladder size).StraysAt (rung place) depth := by
  induction depth generalizing place with
  | zero =>
    obtain ⟨offset, hkind, hoffset⟩ := kind_rung place (by omega)
    refine .here hkind (pair?_eq_none_iff.2 ?_)
    rw [size_ladder, hoffset]
    omega
  | succ depth ih =>
    obtain ⟨offset, hkind, hoffset⟩ := kind_rung place (by omega)
    exact .first hkind (pair?_ladder hoffset (by omega)) (ih (place + 1) (by omega))

/-- The ladder misleads the limit on each heap with room for a pair in the words left over. -/
theorem not_limitTellsCycles_ladder (htail : 2 ≤ size % 8) (hsize : size + 8 < 0x100000000) :
    ¬ (ladder size).LimitTellsCycles (rung 0) := by
  rw [limitTellsCycles_iff_of_word, size_ladder]
  exact fun h => h (acyclic_ladder hsize) (straysAt_ladder 0 htail hsize (Nat.zero_add _))

end

/-- The limit given by the heap tells cycles for a word exactly when the word does not stray inside
as many pairs as the limit allows while it reaches no pair that contains itself. It does so for all
words on all heaps of a size exactly when the words left over by places of 8 have no room for a
pair, or when no offset is left to point outside. -/
theorem limitTellsCycles_iff (heap : Heap) (word : Word) (size : Nat) :
    (heap.LimitTellsCycles word ↔
      (heap.Acyclic word → ¬ heap.StraysAt word (heap.size / 8 + 1))) ∧
    ((∀ (heap : Heap) (word : Word), heap.size = size → heap.LimitTellsCycles word) ↔
      size % 8 < 2 ∨ 0x100000000 ≤ size + 8) := by
  refine ⟨limitTellsCycles_iff_of_word, fun h => ?_, ?_⟩
  · by_contra hsize
    rw [not_or, Nat.not_lt, Nat.not_le] at hsize
    exact not_limitTellsCycles_ladder hsize.1 hsize.2 (h _ _ (size_ladder size))
  · rintro hsize heap word rfl
    refine limitTellsCycles_iff_of_word.2 fun hacyclic hstrays => ?_
    obtain ⟨htail, hlt⟩ := hacyclic.size_of_straysAt hstrays
    omega

/-- On a heap of two words, a pair whose first element lies outside is found nested too deep,
although nothing contains itself. -/
theorem depthExceeded_without_cycle :
    let heap : Heap := ⟨#[⟨9⟩, ⟨0⟩]⟩
    (∃ draft, render ⟨1⟩ heap .byHeap {} = .error (.depthExceeded 1) draft) ∧
      ¬ ∃ part, heap.Reaches ⟨1⟩ part ∧ heap.ContainsItself part := by
  intro heap
  have hladder : heap = ladder 2 := by decide
  have hacyclic : heap.Acyclic ⟨1⟩ := hladder ▸ acyclic_ladder (by decide)
  have hstrays : heap.StraysAt ⟨1⟩ 1 := hladder ▸ straysAt_ladder 0 (by decide) (by decide) rfl
  have hfault : (transcript heap (DepthLimit.byHeap.levels heap.size) ⟨1⟩ 0).fault? =
      some (.depthExceeded 1) :=
    hstrays.fault?_transcript hacyclic (places_le 2) .root (Nat.zero_le _)
  exact ⟨exists_render_eq_error hfault, fun ⟨part, hreaches, hself⟩ => hacyclic part hreaches hself⟩

end Heap

end TaggedValues
