import TaggedValues.Heap

/-!
# What a word reaches

A word that refers to a pair inside the heap has two elements, which may refer to pairs again.
`Heap.Inside` counts how many pairs lie around a word on the way down from a root. Two things can be
wrong with a root: a pair may lie outside the heap (`Heap.Closed` says that none does), and a pair
may contain itself (`Heap.Acyclic` says that none does). Without a pair that contains itself the
pairs on the way down are all different, so there are no more of them than the heap has places for
pairs.

A word that is reached more than once belongs to the value of the root at several places. A `Place`
is the way down to one of them: which element is taken of each of the pairs around it. `Heap.At`
says what word stands at a place, and `Place.Before` is the order from left to right, in which a
pair comes before its elements.
-/

namespace TaggedValues

/-- The word refers to a pair, inside the heap or not. -/
def Word.IsPair (word : Word) : Prop := ∃ offset, word.kind = .pair offset

namespace Heap

/-- The second word is an element of the pair inside the heap that the first word refers to. -/
inductive Element (heap : Heap) (word : Word) : Word → Prop where
  | first {offset : UInt32} {first second : Word} :
    word.kind = .pair offset → heap.pair? offset = some (first, second) → Element heap word first
  | second {offset : UInt32} {first second : Word} :
    word.kind = .pair offset → heap.pair? offset = some (first, second) → Element heap word second

/-- The word lies inside `depth` pairs, each an element of the one around it, and the outermost is
the root. -/
inductive Inside (heap : Heap) (root : Word) : Nat → Word → Prop where
  | root : Inside heap root 0 root
  | element {depth : Nat} {word element : Word} :
    Inside heap root depth word → heap.Element word element → Inside heap root (depth + 1) element

/-- The word is the root, or it lies inside pairs that begin there. -/
def Reaches (heap : Heap) (root word : Word) : Prop := ∃ depth, heap.Inside root depth word

/-- Every pair that the root reaches lies inside the heap. -/
def Closed (heap : Heap) (root : Word) : Prop :=
  ∀ word offset, heap.Reaches root word → word.kind = .pair offset → offset.toNat + 1 < heap.size

/-- The word lies inside itself. -/
def ContainsItself (heap : Heap) (word : Word) : Prop := ∃ depth, heap.Inside word (depth + 1) word

/-- No pair that the root reaches contains itself. -/
def Acyclic (heap : Heap) (root : Word) : Prop :=
  ∀ word, heap.Reaches root word → ¬ heap.ContainsItself word

section
variable {heap : Heap} {root word part : Word} {depth : Nat}

/-- Only pairs have elements. -/
theorem Element.isPair (h : heap.Element word part) : word.IsPair := by
  cases h with
  | first hkind _ | second hkind _ => exact ⟨_, hkind⟩

/-- Every word reaches itself. -/
theorem Reaches.refl (heap : Heap) (root : Word) : heap.Reaches root root := ⟨0, .root⟩

/-- What a word reaches, it reaches together with its elements. -/
theorem Reaches.element (h : heap.Reaches root word) (he : heap.Element word part) :
    heap.Reaches root part :=
  let ⟨depth, h⟩ := h
  ⟨depth + 1, h.element he⟩

/-- What is true of the root, and of every element of a word that it is true of, is true of all that
the root reaches. -/
theorem Reaches.induction {p : Word → Prop} (h : heap.Reaches root word) (hroot : p root)
    (helement : ∀ word part, p word → heap.Element word part → p part) : p word := by
  obtain ⟨depth, h⟩ := h
  induction h with
  | root => exact hroot
  | element _ he ih => exact helement _ _ ih he

/-- A way down goes on from where another one ends. -/
theorem Inside.trans {middle : Word} {further : Nat} (h : heap.Inside root depth middle)
    (h' : heap.Inside middle further word) : heap.Inside root (depth + further) word := by
  induction h' with
  | root => exact h
  | element _ he ih => exact ih.element he

/-- A way down begins with an element of its root. -/
theorem Inside.of_element (he : heap.Element root part) (h : heap.Inside part depth word) :
    heap.Inside root (depth + 1) word :=
  Nat.add_comm depth 1 ▸ (Inside.root.element he).trans h

/-- What is reached from a reached word is reached. -/
theorem Reaches.trans {middle : Word} (h : heap.Reaches root middle)
    (h' : heap.Reaches middle word) : heap.Reaches root word :=
  let ⟨_, h⟩ := h
  let ⟨_, h'⟩ := h'
  ⟨_, h.trans h'⟩

/-- Elements of a closed word are closed. -/
theorem Closed.element (h : heap.Closed root) (he : heap.Element root part) :
    heap.Closed part :=
  fun word offset hr => h word offset (.trans (.element (.refl heap root) he) hr)

/-- Elements of an acyclic word are acyclic. -/
theorem Acyclic.element (h : heap.Acyclic root) (he : heap.Element root part) :
    heap.Acyclic part :=
  fun word hr => h word (.trans (.element (.refl heap root) he) hr)

end

end Heap

/-! ## Places -/

/-- An element of a pair. -/
inductive Turn where
  /-- The first element. -/
  | first
  /-- The second element. -/
  | second
deriving DecidableEq, Repr

/-- The elements to take one after the other, from the root down. -/
abbrev Place := List Turn

/-- The first place comes before the second from left to right: what stands there encloses what
stands at the second, or the two ways down part and it goes on to the left. -/
inductive Place.Before : Place → Place → Prop where
  | encloses {turn : Turn} {place : Place} : Before [] (turn :: place)
  | parts {place place' : Place} : Before (.first :: place) (.second :: place')
  | further {turn : Turn} {place place' : Place} :
    Before place place' → Before (turn :: place) (turn :: place')

/-- The element of a pair that the way goes on to. -/
def Turn.pick : Turn → Word × Word → Word
  | .first, pair => pair.1
  | .second, pair => pair.2

namespace Heap

/-- The part of the root's value at the place is that of the word. All pairs around it lie inside
the heap. -/
inductive At (heap : Heap) : Word → Place → Word → Prop where
  | root {root : Word} : At heap root [] root
  | element {root part : Word} {offset : UInt32} {pair : Word × Word} {turn : Turn}
    {place : Place} : root.kind = .pair offset → heap.pair? offset = some pair →
    At heap (turn.pick pair) place part → At heap root (turn :: place) part

section
variable {heap : Heap} {root part : Word} {offset : UInt32} {pair : Word × Word} {place : Place}

/-- Either turn of a pair inside the heap picks an element of it. -/
theorem element_pick (hkind : root.kind = .pair offset) (hpair : heap.pair? offset = some pair)
    (turn : Turn) : heap.Element root (turn.pick pair) := by
  cases turn with
  | first => exact .first hkind hpair
  | second => exact .second hkind hpair

/-- What stands at a place lies inside as many pairs as there are turns on the way. -/
theorem At.inside (h : heap.At root place part) : heap.Inside root place.length part := by
  induction h with
  | root => exact .root
  | element hkind hpair _ ih => exact .of_element (element_pick hkind hpair _) ih

end

end Heap

end TaggedValues
