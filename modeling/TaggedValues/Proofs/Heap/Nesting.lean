import Mathlib.Data.List.Nodup
import Mathlib.Data.List.Perm.Subperm
import TaggedValues.Heap.Reach
import TaggedValues.Proofs.Word

/-!
# How deep pairs nest

Pairs begin at multiples of 8 and take two words, so a heap has a limited number of places for them
(`Heap.places`). Without a pair that contains itself, the pairs around a word are all different
(`Heap.Acyclic.exists_path`), and then there are no more of them than places
(`Heap.Acyclic.le_places`). A pair that contains itself has ways down of any length
(`Heap.ContainsItself.exists_inside`). So a root that reaches no pair outside the heap has a bound
on its nesting (`Heap.Shallow`) exactly when no pair contains itself (`Heap.Shallow.acyclic`,
`Heap.Acyclic.shallow`).
-/

namespace TaggedValues

namespace Heap

/-- The number of places for pairs on a heap of `size` words. -/
def places (size : Nat) : Nat := (size + 6) / 8

/-- The place number `n` is one if both of its words lie inside the heap. -/
theorem lt_places_iff {size n : Nat} : n < places size ↔ 8 * n + 1 < size := by
  unfold places
  omega

section
variable {heap : Heap} {root word part first second : Word} {offset : UInt32} {depth : Nat}

/-! ## Elements and ways down -/

/-- What has an element is a pair, with both words inside the heap. -/
theorem Element.exists_offset (h : heap.Element word part) :
    ∃ offset, word.kind = .pair offset ∧ offset.toNat + 1 < heap.size := by
  cases h with
  | first hkind hpair | second hkind hpair => exact ⟨_, hkind, lt_size_of_pair? hpair⟩

/-- The elements of a pair are the two words that are read at its offset. -/
theorem element_iff (hkind : word.kind = .pair offset)
    (hpair : heap.pair? offset = some (first, second)) :
    heap.Element word part ↔ part = first ∨ part = second := by
  constructor
  · intro h
    cases h with
    | first hkind' hpair' | second hkind' hpair' =>
      obtain rfl := Word.Kind.pair.inj (hkind.symm.trans hkind')
      obtain ⟨rfl, rfl⟩ := Prod.mk.inj (Option.some.inj (hpair.symm.trans hpair'))
      simp only [true_or, or_true]
  · rintro (rfl | rfl)
    · exact .first hkind hpair
    · exact .second hkind hpair

/-- Only the root itself is inside it at level zero. -/
theorem inside_zero_iff : heap.Inside root 0 part ↔ part = root := by
  constructor
  · intro h
    cases h
    rfl
  · rintro rfl
    exact .root

/-- A way down of some length goes through an element of its root. -/
theorem inside_succ_iff :
    heap.Inside root (depth + 1) part ↔
      ∃ element, heap.Element root element ∧ heap.Inside element depth part := by
  constructor
  · intro h
    induction depth generalizing part with
    | zero =>
      cases h with
      | element h he =>
        obtain rfl := inside_zero_iff.1 h
        exact ⟨part, he, .root⟩
    | succ depth ih =>
      cases h with
      | element h he =>
        obtain ⟨element, he', h'⟩ := ih h
        exact ⟨element, he', h'.element he⟩
  · rintro ⟨element, he, h⟩
    exact .of_element he h

/-- Pairs that are not inside the heap, and words that are no pairs, have nothing inside. -/
theorem Inside.eq_of_pair?_eq_none (h : heap.Inside root depth part)
    (hroot : ∀ offset, root.kind = .pair offset → heap.pair? offset = none) :
    depth = 0 ∧ part = root := by
  cases depth with
  | zero => exact ⟨rfl, inside_zero_iff.1 h⟩
  | succ depth =>
    obtain ⟨element, he, -⟩ := inside_succ_iff.1 h
    obtain ⟨offset, hkind, hlt⟩ := he.exists_offset
    exact absurd hlt (Nat.not_lt.2 (pair?_eq_none_iff.1 (hroot offset hkind)))

/-! ## Pairs that contain themselves -/

/-- A word that contains itself lies inside itself at depths as large as one likes. -/
theorem ContainsItself.exists_inside (h : heap.ContainsItself word) (least : Nat) :
    ∃ depth, least ≤ depth ∧ heap.Inside word depth word := by
  obtain ⟨step, h⟩ := h
  induction least with
  | zero => exact ⟨0, Nat.le_refl 0, .root⟩
  | succ least ih =>
    obtain ⟨depth, hle, hinside⟩ := ih
    exact ⟨depth + (step + 1), by omega, hinside.trans h⟩

/-- What contains itself is a pair inside the heap. -/
theorem ContainsItself.exists_offset (h : heap.ContainsItself word) :
    ∃ offset, word.kind = .pair offset ∧ offset.toNat + 1 < heap.size := by
  obtain ⟨_, h⟩ := h
  obtain ⟨_, he, -⟩ := inside_succ_iff.1 h
  exact he.exists_offset

/-- Without a pair that contains itself, the pairs on the way down to a word are all different. -/
theorem Acyclic.exists_path (hroot : heap.Acyclic root) (h : heap.Inside root depth part) :
    ∃ path : List Word, path.length = depth ∧ path.Nodup ∧
      ∀ pair ∈ path, ∃ further, heap.Inside pair (further + 1) part := by
  -- the last pair of the way leads to `part` at once, and each earlier one through it
  induction h with
  | root => exact ⟨[], rfl, .nil, nofun⟩
  | @element depth word part h he ih =>
    obtain ⟨path, hlength, hnodup, hpath⟩ := ih
    refine ⟨word :: path, congrArg (· + 1) hlength, ?_, ?_⟩
    · refine List.nodup_cons.2 ⟨fun hmem => ?_, hnodup⟩
      exact hroot word ⟨depth, h⟩ (hpath word hmem)
    · intro pair hpair
      rcases List.mem_cons.1 hpair with rfl | hpair
      · exact ⟨0, .element .root he⟩
      · obtain ⟨further, h⟩ := hpath pair hpair
        exact ⟨further + 1, h.element he⟩

/-- Different pairs with something inside take different places. -/
theorem length_le_places {path : List Word} (hnodup : path.Nodup)
    (hpath : ∀ pair ∈ path, ∃ further, heap.Inside pair (further + 1) part) :
    path.length ≤ places heap.size := by
  have hplace : ∀ pair ∈ path, pair.bits.toNat = 8 * (pair.bits.toNat / 8) + 1 ∧
      pair.bits.toNat / 8 < places heap.size := by
    intro pair hpair
    obtain ⟨further, h⟩ := hpath pair hpair
    obtain ⟨_, he, -⟩ := inside_succ_iff.1 h
    obtain ⟨offset, hkind, hlt⟩ := he.exists_offset
    obtain ⟨hoffset, hbits⟩ := Word.kind_eq_pair_iff.1 hkind
    rw [lt_places_iff]
    omega
  have hinj : ∀ pair ∈ path, ∀ pair' ∈ path,
      pair.bits.toNat / 8 = pair'.bits.toNat / 8 → pair = pair' := by
    rintro ⟨bits⟩ hpair ⟨bits'⟩ hpair' heq
    have hbits : bits.toNat = bits'.toNat := by
      rw [(hplace _ hpair).1, (hplace _ hpair').1, heq]
    rw [UInt32.toNat_inj.1 hbits]
  -- the numbers of the places are different too, and all below the number of places
  have hsub : path.map (·.bits.toNat / 8) ⊆ List.range (places heap.size) := by
    intro place hmem
    obtain ⟨pair, hpair, rfl⟩ := List.mem_map.1 hmem
    exact List.mem_range.2 (hplace pair hpair).2
  have := ((hnodup.map_on hinj).subperm hsub).length_le
  rwa [List.length_map, List.length_range] at this

/-- Without a pair that contains itself, no more pairs lie around a word than the heap has
places. -/
theorem Acyclic.le_places (hroot : heap.Acyclic root) (h : heap.Inside root depth part) :
    depth ≤ places heap.size := by
  obtain ⟨path, rfl, hnodup, hpath⟩ := hroot.exists_path h
  exact length_le_places hnodup hpath

/-- A pair inside the heap takes a place besides those of the pairs around it. -/
theorem Acyclic.lt_places (hroot : heap.Acyclic root) (h : heap.Inside root depth word)
    (hkind : word.kind = .pair offset) (hlt : offset.toNat + 1 < heap.size) :
    depth < places heap.size := by
  cases hpair : heap.pair? offset with
  | none => exact absurd hlt (Nat.not_lt.2 (pair?_eq_none_iff.1 hpair))
  | some pair =>
    obtain ⟨first, second⟩ := pair
    exact hroot.le_places (h.element (.first hkind hpair))

/-- If the elements of pairs that are pairs have greater bits, no pair contains itself. -/
theorem acyclic_of_lt
    (hlt : ∀ word part, heap.Element word part → part.IsPair → word.bits < part.bits) :
    heap.Acyclic root := by
  have hinside : ∀ depth word part, heap.Inside word (depth + 1) part → part.IsPair →
      word.bits < part.bits := by
    intro depth word part h hpair
    induction depth generalizing part with
    | zero =>
      obtain ⟨element, he, h⟩ := inside_succ_iff.1 h
      obtain rfl := inside_zero_iff.1 h
      exact hlt word part he hpair
    | succ depth ih =>
      cases h with
      | element h he => exact UInt32.lt_trans (ih _ h he.isPair) (hlt _ _ he hpair)
  rintro word - ⟨depth, h⟩
  obtain ⟨offset, hkind, -⟩ := ContainsItself.exists_offset ⟨depth, h⟩
  exact UInt32.lt_irrefl _ (hinside depth word word h ⟨offset, hkind⟩)

/-! ## Roots without faults -/

/-- Every pair that the root reaches lies inside fewer than `limit` others. -/
def Shallow (heap : Heap) (limit : Nat) (root : Word) : Prop :=
  ∀ depth word, heap.Inside root depth word → word.IsPair → depth < limit

/-- What is shallow for a limit is so for a larger one. -/
theorem Shallow.mono {limit limit' : Nat} (h : heap.Shallow limit root) (hle : limit ≤ limit') :
    heap.Shallow limit' root :=
  fun depth word hinside hpair => Nat.lt_of_lt_of_le (h depth word hinside hpair) hle

/-- A scalar is shallow for every limit. -/
theorem shallow_of_scalar (hscalar : ∀ offset, root.kind ≠ .pair offset) (limit : Nat) :
    heap.Shallow limit root := by
  rintro depth word hinside ⟨offset, hkind⟩
  obtain ⟨-, rfl⟩ := hinside.eq_of_pair?_eq_none fun _ hkind => absurd hkind (hscalar _)
  exact absurd hkind (hscalar offset)

/-- No pair is shallow for the limit zero. -/
theorem not_shallow_zero (hpair : root.IsPair) : ¬ heap.Shallow 0 root :=
  fun h => Nat.not_lt_zero 0 (h 0 root .root hpair)

/-- The elements of a pair have one level fewer than the pair. -/
theorem shallow_succ_iff {limit : Nat} (hkind : root.kind = .pair offset)
    (hpair : heap.pair? offset = some (first, second)) :
    heap.Shallow (limit + 1) root ↔ heap.Shallow limit first ∧ heap.Shallow limit second := by
  constructor
  · intro h
    refine ⟨fun depth word hinside hword => ?_, fun depth word hinside hword => ?_⟩
    · exact Nat.lt_of_succ_lt_succ (h _ _ (.of_element (.first hkind hpair) hinside) hword)
    · exact Nat.lt_of_succ_lt_succ (h _ _ (.of_element (.second hkind hpair) hinside) hword)
  · rintro ⟨hfirst, hsecond⟩ depth word hinside hword
    cases depth with
    | zero => exact Nat.succ_pos limit
    | succ depth =>
      obtain ⟨element, he, hinside⟩ := inside_succ_iff.1 hinside
      apply Nat.succ_lt_succ
      rcases (element_iff hkind hpair).1 he with rfl | rfl
      · exact hfirst depth word hinside hword
      · exact hsecond depth word hinside hword

/-- A scalar is closed in every heap. -/
theorem closed_of_scalar (hscalar : ∀ offset, root.kind ≠ .pair offset) : heap.Closed root := by
  rintro word offset ⟨depth, hinside⟩ hkind
  obtain ⟨-, rfl⟩ := hinside.eq_of_pair?_eq_none fun _ hkind => absurd hkind (hscalar _)
  exact absurd hkind (hscalar offset)

/-- A pair outside the heap is not closed. -/
theorem not_closed_of_outside (hkind : root.kind = .pair offset)
    (hpair : heap.pair? offset = none) : ¬ heap.Closed root :=
  fun h => Nat.not_lt.2 (pair?_eq_none_iff.1 hpair) (h root offset (.refl heap root) hkind)

/-- A pair inside the heap reaches what its elements reach. -/
theorem closed_iff (hkind : root.kind = .pair offset)
    (hpair : heap.pair? offset = some (first, second)) :
    heap.Closed root ↔ heap.Closed first ∧ heap.Closed second := by
  constructor
  · exact fun h => ⟨h.element (.first hkind hpair), h.element (.second hkind hpair)⟩
  · rintro ⟨hfirst, hsecond⟩ word offset' ⟨depth, hinside⟩ hword
    cases depth with
    | zero =>
      obtain rfl := inside_zero_iff.1 hinside
      obtain rfl := Word.Kind.pair.inj (hkind.symm.trans hword)
      exact lt_size_of_pair? hpair
    | succ depth =>
      obtain ⟨element, he, hinside⟩ := inside_succ_iff.1 hinside
      rcases (element_iff hkind hpair).1 he with rfl | rfl
      · exact hfirst word offset' ⟨depth, hinside⟩ hword
      · exact hsecond word offset' ⟨depth, hinside⟩ hword

/-- A bound on the nesting rules out pairs that contain themselves. -/
theorem Shallow.acyclic {limit : Nat} (h : heap.Shallow limit root) : heap.Acyclic root := by
  rintro word ⟨depth, hinside⟩ hself
  obtain ⟨offset, hkind, -⟩ := hself.exists_offset
  obtain ⟨further, hle, hinside'⟩ := hself.exists_inside limit
  have := h _ word (hinside.trans hinside') ⟨offset, hkind⟩
  omega

/-- Without a pair that contains itself, pairs inside the heap nest no deeper than it has places for
them. -/
theorem Acyclic.shallow (hroot : heap.Acyclic root) (hclosed : heap.Closed root) :
    heap.Shallow (places heap.size) root := by
  rintro depth word hinside ⟨offset, hkind⟩
  exact hroot.lt_places hinside hkind (hclosed word offset ⟨depth, hinside⟩ hkind)

end

end Heap

end TaggedValues
