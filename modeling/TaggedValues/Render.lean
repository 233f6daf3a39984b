import TaggedValues.Draft
import TaggedValues.Heap

/-!
# The text of a value

`render` writes a word as text and follows pairs into the heap: `(`, the first element, `, `, the
second element, `)`. It works off a stack of fragments (`Fragment`), so a value may be nested as
deeply as the heap allows. A pair that lies inside too many others (`DepthLimit`) is not entered,
which ends the work also on values that contain themselves: each pair entered leaves fewer levels
below it, and `Fragment.weight` counts what can still come of a fragment.

The text is made in a `Draft`, which may have a bounded room and remembers the pairs entered
(`Visit`).
-/

namespace TaggedValues

open Text

/-- The text of a word that is no pair, in the pieces in which it is written. A pair has no text of
its own. -/
def Word.Kind.pieces : Word.Kind → List String
  | .int value => Numeral.signedPieces value.toInt
  | .closure => ["<function>"]
  | .bool true => ["true"]
  | .bool false => ["false"]
  | .pair _ => []
  | .invalid bits => "Unknown value: " :: Numeral.hexPieces bits

/-! ## Fragments -/

/-- How many pairs may enclose each other. -/
inductive DepthLimit where
  /-- No fewer than the heap has places for pairs, so only a value that contains itself is nested
  more deeply. -/
  | byHeap
  /-- The given number. -/
  | fixed (levels : Nat)
deriving DecidableEq, Repr

/-- The number of pairs that may enclose each other on a heap of the given size. -/
def DepthLimit.levels (limit : DepthLimit) (size : Nat) : Nat :=
  match limit with
  | byHeap => size / 8 + 1
  | fixed levels => levels

/-- A part of a text that is still to be written. -/
inductive Fragment where
  /-- The text itself. -/
  | text (text : String)
  /-- The value of a word inside `depth` pairs. -/
  | value (word : Word) (depth : Nat)
deriving DecidableEq, Repr

namespace Fragment

/-- Writes the beginning of a fragment, and gives the fragments that make up the rest of it. -/
def write (heap : Heap) (limit : Nat) : Fragment → Drafting (List Fragment)
  | text piece => do
    Draft.write piece
    return []
  | value word depth =>
    match word.kind with
    | .pair offset =>
      if limit ≤ depth then throw (.depthExceeded limit)
      else
        match heap.pair? offset with
        | none => throw (.pairOutOfBounds word offset heap.size)
        | some (first, second) => do
          Draft.enter { offset, depth }
          Draft.write "("
          return [value first (depth + 1), text ", ", value second (depth + 1), text ")"]
    | kind => do
      Draft.writeAll kind.pieces
      return []

/-- A bound on the number of fragments that can come of a value with so many levels left, itself
included: a pair takes two values of one level fewer and two texts besides. -/
def valueWeight : Nat → Nat
  | 0 => 1
  | levels + 1 => 2 * valueWeight levels + 3

/-- A bound on the number of fragments that can come of one, itself included. -/
def weight (limit : Nat) : Fragment → Nat
  | text _ => 1
  | value _ depth => valueWeight (limit - depth)

/-- The weight of a stack of fragments. -/
def totalWeight (limit : Nat) : List Fragment → Nat
  | [] => 0
  | fragment :: below => fragment.weight limit + totalWeight limit below

/-- A value has a weight at every level. -/
theorem valueWeight_pos (levels : Nat) : 0 < valueWeight levels := by
  cases levels <;> simp [valueWeight]

/-- A fragment has a weight under every limit. -/
theorem weight_pos (limit : Nat) (fragment : Fragment) : 0 < fragment.weight limit := by
  cases fragment with
  | text => exact Nat.one_pos
  | value _ depth => exact valueWeight_pos _

/-- The weights of two stacks add up. -/
theorem totalWeight_append (limit : Nat) (stack rest : List Fragment) :
    totalWeight limit (stack ++ rest) = totalWeight limit stack + totalWeight limit rest := by
  induction stack with
  | nil => simp [totalWeight]
  | cons fragment below ih => simp [totalWeight, ih, Nat.add_assoc]

/-- The rest of a fragment weighs less than the fragment. -/
theorem totalWeight_write {heap : Heap} {limit : Nat} {fragment : Fragment}
    {draft draft' : Draft} {rest : List Fragment}
    (h : write heap limit fragment draft = .ok rest draft') :
    totalWeight limit rest < fragment.weight limit := by
  cases fragment with
  | text piece =>
    obtain ⟨_, _, _, h⟩ := Drafting.bind_eq_ok h
    cases h
    exact weight_pos limit (text piece)
  | value word depth =>
    cases hkind : word.kind with
    | pair offset =>
      by_cases hdepth : limit ≤ depth
      · simp only [write, hkind, hdepth, ↓reduceIte] at h
        cases h
      · cases hpair : heap.pair? offset with
        | none =>
          simp only [write, hkind, hdepth, ↓reduceIte, hpair] at h
          cases h
        | some pair =>
          simp only [write, hkind, hdepth, ↓reduceIte, hpair] at h
          obtain ⟨_, _, _, h⟩ := Drafting.bind_eq_ok h
          obtain ⟨_, _, _, h⟩ := Drafting.bind_eq_ok h
          cases h
          -- one level fewer is left for each of the two elements
          have hlevels : limit - depth = limit - (depth + 1) + 1 := by omega
          simp only [totalWeight, weight, hlevels, valueWeight]
          omega
    | int _ | closure | bool _ | invalid _ =>
      simp only [write, hkind] at h
      obtain ⟨_, _, _, h⟩ := Drafting.bind_eq_ok h
      cases h
      exact weight_pos limit (value word depth)

/-- Writes a stack of fragments from the top until none is left or one fails. -/
def writeAll (heap : Heap) (limit : Nat) (stack : List Fragment) : Drafting Unit := fun draft =>
  match stack with
  | [] => .ok () draft
  | fragment :: below =>
    match _h : write heap limit fragment draft with
    | .ok rest draft => writeAll heap limit (rest ++ below) draft
    | .error fault draft => .error fault draft
termination_by totalWeight limit stack
decreasing_by
  rw [totalWeight_append]
  exact Nat.add_lt_add_right (totalWeight_write _h) _

@[simp] theorem writeAll_nil (heap : Heap) (limit : Nat) : writeAll heap limit [] = pure () := by
  funext draft
  rw [writeAll.eq_def]
  rfl

/-- The top of a stack is written first, its rest next, and what lies below comes last. -/
theorem writeAll_cons (heap : Heap) (limit : Nat) (fragment : Fragment) (below : List Fragment) :
    writeAll heap limit (fragment :: below) =
      (do writeAll heap limit ((← write heap limit fragment) ++ below)) := by
  funext draft
  rw [writeAll.eq_def]
  change _ = EStateM.bind _ _ _
  unfold EStateM.bind
  dsimp only
  split <;> simp_all

end Fragment

/-! ## Rendering -/

/-- Writes the text of a word and gives the word back. -/
def render (word : Word) (heap : Heap) (limit : DepthLimit) : Drafting Word := do
  Fragment.writeAll heap (limit.levels heap.size) [.value word 0]
  return word

/-- The text of a word, under the limit given by the heap. -/
def Word.toText (word : Word) (heap : Heap) : Except Fault String :=
  match render word heap .byHeap {} with
  | .ok _ draft => .ok draft.text
  | .error fault _ => .error fault

end TaggedValues
