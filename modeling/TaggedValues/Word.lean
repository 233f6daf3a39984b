/-!
# Tagged words

A `Word` is 32 bits that say by themselves what they stand for. The lowest bit separates integers
from everything else, the lowest three bits (`Word.tag`) separate closures and pairs from the rest,
and two bit patterns are the booleans. `Word.kind` reads a word, `Word.ofInt`, `Word.ofPair?`,
`Word.ofClosure` and `Word.ofBool` make one. The tests of `Word.kind` overlap, so their order is
part of the format: the integers come first and the booleans before the pairs.
-/

namespace TaggedValues

/-- A 32-bit machine word that holds a tagged value. -/
structure Word where
  /-- The bits of the word, as an unsigned number. -/
  bits : UInt32
deriving DecidableEq, Repr

namespace Word

instance : Inhabited Word := ⟨⟨0⟩⟩

/-- What a word stands for. -/
inductive Kind where
  /-- A signed integer of 31 bits. -/
  | int (value : Int32)
  /-- A function, whose payload means nothing here. -/
  | closure
  /-- One of the two truth values. -/
  | bool (value : Bool)
  /-- A pair whose first element is the heap word at `offset`, and the second the one behind it. -/
  | pair (offset : UInt32)
  /-- A bit pattern that stands for nothing. -/
  | invalid (bits : UInt32)
deriving DecidableEq, Repr

/-- The lowest three bits. -/
def tag (w : Word) : UInt32 := w.bits % 8

/-- What the word stands for: the first of the tests that it meets decides. -/
def kind (w : Word) : Kind :=
  if w.bits % 2 = 0 then .int (w.bits.toInt32 >>> 1)
  else if w.tag = 5 then .closure
  else if w.bits = 0xFFFFFFFF then .bool true
  else if w.bits = 0x7FFFFFFF then .bool false
  else if w.tag = 1 then .pair (w.bits - 1)
  else .invalid w.bits

/-! ## Making words -/

/-- The word of an integer. The payload has 31 bits, so the top bit of `value` is lost. -/
def ofInt (value : Int32) : Word := ⟨value.toUInt32 <<< 1⟩

/-- The word of a truth value. -/
def ofBool : Bool → Word
  | true => ⟨0xFFFFFFFF⟩
  | false => ⟨0x7FFFFFFF⟩

/-- The word that refers to the pair at `offset`, or `none` unless the offset is a multiple of 8,
which leaves the tag bits free. -/
def ofPair? (offset : UInt32) : Option Word :=
  if offset % 8 = 0 then some ⟨offset + 1⟩ else none

/-- The word of a closure. The payload has 29 bits, so the top three bits of `payload` are lost. -/
def ofClosure (payload : UInt32) : Word := ⟨(payload <<< 3) + 5⟩

end Word

end TaggedValues
