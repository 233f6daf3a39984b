import TaggedValues.Render

/-!
# Rendering by descent

`descend` writes the text of a value by plain recursion on its pairs. It says what the stack of
fragments is for: a value on top of a stack is written as descent writes it, and then the work goes
on with what lies below (`Fragment.writeAll_value`), so rendering is descent from the root
(`render_eq_descend`). This holds of failures too, of the text they leave behind and of the pairs
entered before.
-/

namespace TaggedValues

/-- Writes the text of a word inside `depth` pairs: the text of a pair is that of its elements, one
level further down. -/
def descend (heap : Heap) (limit : Nat) (word : Word) (depth : Nat) : Drafting Unit :=
  match word.kind with
  | .pair offset =>
    if limit ≤ depth then throw (.depthExceeded limit)
    else
      match heap.pair? offset with
      | none => throw (.pairOutOfBounds word offset heap.size)
      | some (first, second) => do
        Draft.enter { offset, depth }
        Draft.write "("
        descend heap limit first (depth + 1)
        Draft.write ", "
        descend heap limit second (depth + 1)
        Draft.write ")"
  | kind => Draft.writeAll kind.pieces
termination_by limit - depth

namespace Fragment

/-- A text on top of the stack is written before what is below. -/
theorem writeAll_text (heap : Heap) (limit : Nat) (piece : String) (below : List Fragment) :
    writeAll heap limit (.text piece :: below) =
      (do Draft.write piece; writeAll heap limit below) := by
  rw [writeAll_cons]
  simp only [write, bind_assoc, pure_bind, List.nil_append]

/-- A value on top of a stack is written as descent writes it. -/
theorem writeAll_value (heap : Heap) (limit : Nat) (word : Word) (depth : Nat)
    (below : List Fragment) :
    writeAll heap limit (.value word depth :: below) =
      (do descend heap limit word depth; writeAll heap limit below) := by
  fun_induction descend heap limit word depth generalizing below with
  | case1 word depth offset hkind hdepth =>
    rw [writeAll_cons]
    simp only [write, hkind, hdepth, ↓reduceIte]
    rfl
  | case2 word depth offset hkind hdepth hpair =>
    rw [writeAll_cons]
    simp only [write, hkind, hdepth, ↓reduceIte, hpair]
    rfl
  | case3 word depth offset hkind hdepth first second hpair ihFirst ihSecond =>
    rw [writeAll_cons]
    simp only [write, hkind, hdepth, ↓reduceIte, hpair, bind_assoc, pure_bind, List.cons_append,
      List.nil_append, ihFirst, ihSecond, writeAll_text]
  | case4 word depth hscalar =>
    rw [writeAll_cons]
    cases hkind : word.kind with
    | pair offset => exact absurd hkind (hscalar offset)
    | int _ | closure | bool _ | invalid _ =>
      simp only [write, hkind, bind_assoc, pure_bind, List.nil_append]

end Fragment

/-- Rendering is descent from the root. -/
theorem render_eq_descend (word : Word) (heap : Heap) (limit : DepthLimit) :
    render word heap limit = (do descend heap (limit.levels heap.size) word 0; return word) := by
  rw [render, Fragment.writeAll_value]
  simp

end TaggedValues
