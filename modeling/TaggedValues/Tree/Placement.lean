import TaggedValues.Tree

/-!
# Placing a tree

A `Tree.Placement` is a tree whose leaves are words and whose pairs have offsets. It says which word
stands for the tree and what a heap has to hold for that: each element at its place, and the places
of different pairs apart from each other.
-/

namespace TaggedValues

namespace Tree

/-- A tree with words at the leaves and an offset for each pair. -/
inductive Placement where
  /-- A word. -/
  | leaf (word : Word)
  /-- A pair at an offset. -/
  | pair (offset : UInt32) (first second : Placement)
deriving DecidableEq, Repr

namespace Placement

/-- The word that stands for the tree. -/
def root : Placement → Word
  | leaf word => word
  | pair offset _ _ => ⟨offset + 1⟩

/-- The offsets of the pairs. -/
def offsets : Placement → List UInt32
  | leaf _ => []
  | pair offset first second => offset :: (first.offsets ++ second.offsets)

/-- The tree that is placed, provided that no leaf refers to a pair. -/
def tree? : Placement → Option Tree
  | leaf word => word.kind.scalar?
  | pair _ first second => do return .pair (← first.tree?) (← second.tree?)

/-- The words at the offsets from 0 on, and zeros behind them, hold the elements of each pair at its
place. -/
def HeldBy (words : List Word) : Placement → Prop
  | leaf _ => True
  | pair offset first second =>
    words.getD offset.toNat ⟨0⟩ = first.root ∧ words.getD (offset.toNat + 1) ⟨0⟩ = second.root ∧
      first.HeldBy words ∧ second.HeldBy words

instance decidableHeldBy (words : List Word) :
    (placement : Placement) → Decidable (placement.HeldBy words)
  | leaf _ => inferInstanceAs (Decidable True)
  | pair _ first second =>
    have := decidableHeldBy words first
    have := decidableHeldBy words second
    inferInstanceAs (Decidable (_ ∧ _ ∧ _ ∧ _))

/-- The offsets are places for pairs on a heap of `size` words, and different pairs have different
offsets. -/
def Fits (size : Nat) (placement : Placement) : Prop :=
  placement.offsets.Nodup ∧
    ∀ offset ∈ placement.offsets, offset % 8 = 0 ∧ offset.toNat + 1 < size

instance (size : Nat) (placement : Placement) : Decidable (placement.Fits size) :=
  have := List.decidableBAll (fun offset : UInt32 => offset % 8 = 0 ∧ offset.toNat + 1 < size)
    placement.offsets
  inferInstanceAs (Decidable (_ ∧ _))

end Placement

end Tree

end TaggedValues
