/-!
# Cutting texts

A position in a text is a number of bytes of its UTF-8 form in front of it. `cut?` cuts a text at a
position, `part?` takes what lies between two. Neither cuts through a character
(`cut?_eq_some_iff`).
-/

namespace TaggedValues.Text

/-- The number of bytes of a text in UTF-8. -/
def byteLength : List Char → Nat
  | [] => 0
  | c :: rest => c.utf8Size + byteLength rest

/-- The parts of a text in front of a position and behind it, unless the position lies within a
character or behind the end. -/
def cut? : Nat → List Char → Option (List Char × List Char)
  | 0, text => some ([], text)
  | _ + 1, [] => none
  | position + 1, c :: rest =>
    if c.utf8Size ≤ position + 1 then
      (cut? (position + 1 - c.utf8Size) rest).map fun (front, back) => (c :: front, back)
    else none

/-- The part of a text between two positions. -/
def part? (start stop : Nat) (text : List Char) : Option (List Char) := do
  let (front, _) ← cut? stop text
  let (_, part) ← cut? start front
  return part

/-- The part of a text behind a position. -/
def tail? (start : Nat) (text : List Char) : Option (List Char) := do
  let (_, back) ← cut? start text
  return back

section
variable {position : Nat} {text front back : List Char}

/-- The two parts make up the text, and the front one is as long as the position says. -/
theorem cut?_eq_some_iff :
    cut? position text = some (front, back) ↔
      text = front ++ back ∧ byteLength front = position := by
  fun_induction cut? position text generalizing front back with
  | case1 text =>
    cases front with
    | nil => simp [byteLength]
    | cons c front => simpa [byteLength] using fun _ => by have := c.utf8Size_pos; omega
  | case2 position =>
    cases front <;> simp [byteLength]
  | case3 position c rest hle ih =>
    cases front with
    | nil => simp [byteLength]
    | cons head front =>
      simp only [Option.map_eq_some_iff, Prod.exists, Prod.mk.injEq, List.cons.injEq, ih,
        byteLength, List.cons_append]
      constructor
      · rintro ⟨front, back, ⟨rfl, h⟩, ⟨rfl, rfl⟩, rfl⟩
        exact ⟨⟨rfl, rfl⟩, by omega⟩
      · rintro ⟨⟨rfl, rfl⟩, h⟩
        exact ⟨front, back, ⟨rfl, by omega⟩, ⟨rfl, rfl⟩, rfl⟩
  | case4 position c rest hlt =>
    cases front with
    | nil => simp [byteLength]
    | cons head front =>
      simp only [byteLength, List.cons_append, List.cons.injEq, false_iff, reduceCtorEq]
      rintro ⟨⟨rfl, rfl⟩, h⟩
      omega

/-- A text is cut behind its front part. -/
theorem cut?_append (front back : List Char) :
    cut? (byteLength front) (front ++ back) = some (front, back) :=
  cut?_eq_some_iff.2 ⟨rfl, rfl⟩

/-- The part up to the length of the front is the front. -/
theorem part?_append (front back : List Char) :
    part? 0 (byteLength front) (front ++ back) = some front := by
  rw [part?, cut?_append]
  exact congrArg (Option.bind · _) (cut?_append [] front)

/-- The tail from the length of the front on is the back. -/
theorem tail?_append (front back : List Char) :
    tail? (byteLength front) (front ++ back) = some back := by
  rw [tail?, cut?_append]
  rfl

/-- The bytes of two texts add up. -/
theorem byteLength_append (front back : List Char) :
    byteLength (front ++ back) = byteLength front + byteLength back := by
  induction front with
  | nil => exact (Nat.zero_add _).symm
  | cons c rest ih => rw [List.cons_append, byteLength, byteLength, ih, Nat.add_assoc]

end

end TaggedValues.Text
