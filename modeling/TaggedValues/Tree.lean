import TaggedValues.Heap
import TaggedValues.Text.Numeral

/-!
# Values as trees

A `Tree` is a finite value without its heap: it knows nothing of offsets, of sharing or of the
payload of a closure. `Heap.Unfolds` relates a word to the tree it stands for. There is at most one
(`Heap.Unfolds.unique`), and there is none if the word reaches a pair outside the heap or one that
contains itself. `Tree.text` is how a tree is written.
-/

namespace TaggedValues

open Text

/-- A value without its heap. -/
inductive Tree where
  /-- A signed integer. -/
  | int (value : Int32)
  /-- A function. -/
  | closure
  /-- One of the two truth values. -/
  | bool (value : Bool)
  /-- A bit pattern that stands for nothing. -/
  | invalid (bits : UInt32)
  /-- A pair of two values. -/
  | pair (first second : Tree)
deriving DecidableEq, Repr

namespace Tree

/-- How a value is written. -/
def text : Tree → String
  | int value => String.join (Numeral.signedPieces value.toInt)
  | closure => "<function>"
  | bool true => "true"
  | bool false => "false"
  | invalid bits => "Unknown value: " ++ String.join (Numeral.hexPieces bits)
  | pair first second => "(" ++ first.text ++ ", " ++ second.text ++ ")"

/-- How many pairs enclose each other at the most. -/
def height : Tree → Nat
  | int _ | closure | bool _ | invalid _ => 0
  | pair first second => 1 + max first.height second.height

end Tree

/-- The value that a word stands for, unless it is a pair. -/
def Word.Kind.scalar? : Word.Kind → Option Tree
  | .int value => some (.int value)
  | .closure => some .closure
  | .bool value => some (.bool value)
  | .pair _ => none
  | .invalid bits => some (.invalid bits)

namespace Heap

/-- The word stands for the value. -/
inductive Unfolds (heap : Heap) : Word → Tree → Prop where
  | scalar {word : Word} {tree : Tree} : word.kind.scalar? = some tree → Unfolds heap word tree
  | pair {word first second : Word} {offset : UInt32} {firstTree secondTree : Tree} :
    word.kind = .pair offset → heap.pair? offset = some (first, second) →
    Unfolds heap first firstTree → Unfolds heap second secondTree →
    Unfolds heap word (.pair firstTree secondTree)

/-- A word stands for one value only. -/
theorem Unfolds.unique {heap : Heap} {word : Word} {tree tree' : Tree}
    (h : heap.Unfolds word tree) (h' : heap.Unfolds word tree') : tree = tree' := by
  induction h generalizing tree' with
  | scalar hscalar =>
    cases h' with
    | scalar hscalar' => exact Option.some.inj (hscalar.symm.trans hscalar')
    | pair hkind => simp [hkind, Word.Kind.scalar?] at hscalar
  | pair hkind hpair _ _ ihFirst ihSecond =>
    cases h' with
    | scalar hscalar => simp [hkind, Word.Kind.scalar?] at hscalar
    | pair hkind' hpair' hfirst hsecond =>
      obtain rfl := Word.Kind.pair.inj (hkind.symm.trans hkind')
      obtain ⟨rfl, rfl⟩ := Prod.mk.inj (Option.some.inj (hpair.symm.trans hpair'))
      rw [ihFirst hfirst, ihSecond hsecond]

end Heap

end TaggedValues
