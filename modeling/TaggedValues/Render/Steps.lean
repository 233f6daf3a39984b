import TaggedValues.Render

/-!
# Rendering in steps

`Fragment.Steps` follows the work on a stack of fragments one fragment at a time and counts them. It
shows the stack between two steps, which the result of the work does not. `Fragment.Ends` counts the
fragments up to the end of the work, which every stack comes to (`Fragment.exists_ends`).
-/

namespace TaggedValues

namespace Fragment

/-- Writing `count` fragments, each from the top of the stack, leads from the first stack and draft
to the second. -/
inductive Steps (heap : Heap) (limit : Nat) (stack : List Fragment) (draft : Draft) :
    Nat → List Fragment → Draft → Prop where
  | start : Steps heap limit stack draft 0 stack draft
  | next {count : Nat} {fragment : Fragment} {below rest : List Fragment} {draft' draft'' : Draft} :
    Steps heap limit stack draft count (fragment :: below) draft' →
    write heap limit fragment draft' = .ok rest draft'' →
    Steps heap limit stack draft (count + 1) (rest ++ below) draft''

/-- The work on a stack takes `count` fragments off it: all that come of it, or the last of them
cannot be written. -/
inductive Ends (heap : Heap) (limit : Nat) (stack : List Fragment) (draft : Draft) :
    Nat → EStateM.Result Fault Draft Unit → Prop where
  | empty {count : Nat} {draft' : Draft} :
    Steps heap limit stack draft count [] draft' →
    Ends heap limit stack draft count (.ok () draft')
  | failed {count : Nat} {fragment : Fragment} {below : List Fragment} {draft' draft'' : Draft}
    {fault : Fault} :
    Steps heap limit stack draft count (fragment :: below) draft' →
    write heap limit fragment draft' = .error fault draft'' →
    Ends heap limit stack draft (count + 1) (.error fault draft'')

section
variable {heap : Heap} {limit count : Nat} {stack stack' below rest : List Fragment}
  {fragment : Fragment} {draft draft' draft'' : Draft} {result : EStateM.Result Fault Draft Unit}

/-- The work is the steps up to the end of the stack or to the first failure. -/
theorem Steps.writeAll_eq (h : Steps heap limit stack draft count stack' draft') :
    writeAll heap limit stack draft = writeAll heap limit stack' draft' := by
  induction h with
  | start => rfl
  | next _ hwrite ih =>
    rw [ih, writeAll_cons]
    simp [bind, EStateM.bind, hwrite]

/-- The work ends as its last step does. -/
theorem Ends.writeAll_eq (h : Ends heap limit stack draft count result) :
    writeAll heap limit stack draft = result := by
  cases h with
  | empty hsteps =>
    rw [hsteps.writeAll_eq, writeAll_nil]
    rfl
  | failed hsteps hfailed =>
    rw [hsteps.writeAll_eq, writeAll_cons]
    simp [bind, EStateM.bind, hfailed]

/-- A step may come in front of others. -/
theorem Steps.of_write (hwrite : write heap limit fragment draft = .ok rest draft')
    (h : Steps heap limit (rest ++ below) draft' count stack' draft'') :
    Steps heap limit (fragment :: below) draft (count + 1) stack' draft'' := by
  induction h with
  | start => exact .next .start hwrite
  | next _ hwrite' ih => exact ih.next hwrite'

/-- One step more in front of a run that ends. -/
theorem Ends.of_write (hwrite : write heap limit fragment draft = .ok rest draft')
    (h : Ends heap limit (rest ++ below) draft' count result) :
    Ends heap limit (fragment :: below) draft (count + 1) result := by
  cases h with
  | empty hsteps => exact .empty (hsteps.of_write hwrite)
  | failed hsteps hfailed => exact .failed (hsteps.of_write hwrite) hfailed

/-- The work on every stack comes to an end. -/
theorem exists_ends (heap : Heap) (limit : Nat) (stack : List Fragment) (draft : Draft) :
    ∃ count, Ends heap limit stack draft count (writeAll heap limit stack draft) := by
  fun_induction writeAll heap limit stack draft with
  | case1 draft => exact ⟨0, .empty .start⟩
  | case2 draft fragment below rest draft' hwrite ih =>
    obtain ⟨count, h⟩ := ih
    exact ⟨count + 1, h.of_write hwrite⟩
  | case3 draft fragment below fault draft' hwrite => exact ⟨1, .failed .start hwrite⟩

end

end Fragment

end TaggedValues
