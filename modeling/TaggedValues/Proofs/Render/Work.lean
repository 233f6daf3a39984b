import Mathlib.Algebra.Group.Nat.Defs
import TaggedValues.Render.Steps

/-!
# How much work a value takes

A step of the work either enters a pair, which puts four fragments in the place of one, or takes a
fragment off the stack for good (`Fragment.write_cases`). So the pairs entered say how many steps
were done for the fragments that are left (`Fragment.Steps.count_add_length`), and the weight of the
first fragment, from which every step takes something, says how many pairs there can be
(`Fragment.Steps.count_add_totalWeight`).

The stack stays low although a step may make it higher: what lies below a value was left there by
the pairs around it, three fragments by each (`Fragment.Tiered`). All this holds on every heap,
whatever contains itself, and for drafts of every size (`Fragment.work_bounded`).
-/

namespace TaggedValues

/-! ## Work that enters no pair -/

namespace Drafting

/-- The work enters no pair, whether it succeeds or fails. -/
def EntersNone {α : Type} (work : Drafting α) : Prop :=
  ∀ draft : Draft, (left (work draft)).visits = draft.visits

section
variable {α β : Type} {work : Drafting α} {next : α → Drafting β}

/-- Doing nothing enters no pair. -/
theorem entersNone_pure (a : α) : EntersNone (pure a) :=
  fun _ => rfl

/-- Failing enters no pair. -/
theorem entersNone_throw (fault : Fault) : EntersNone (throw fault : Drafting α) :=
  fun _ => rfl

/-- Work in sequence enters no pair if neither part does. -/
theorem EntersNone.bind (h : EntersNone work) (h' : ∀ a, EntersNone (next a)) :
    EntersNone (work >>= next) := by
  intro draft
  have hwork := h draft
  change (left (EStateM.bind work next draft)).visits = draft.visits
  unfold EStateM.bind
  cases hresult : work draft with
  | ok a draft' =>
    rw [hresult] at hwork
    exact (h' a draft').trans hwork
  | error fault draft' =>
    rw [hresult] at hwork
    exact hwork

/-- Entering a pair always succeeds. -/
theorem enter_bind (visit : Visit) (work : Drafting α) (draft : Draft) :
    (do Draft.enter visit; work) draft = work { draft with visits := draft.visits.push visit } :=
  rfl

/-- Writing enters no pair. -/
theorem entersNone_write (piece : String) : EntersNone (Draft.write piece) := by
  rintro ⟨text, room, visits⟩
  cases room with
  | none => rfl
  | some room =>
    simp only [Draft.write]
    split <;> rfl

/-- Nor does writing many pieces. -/
theorem entersNone_writeAll (pieces : List String) : EntersNone (Draft.writeAll pieces) := by
  induction pieces with
  | nil => exact entersNone_pure ()
  | cons piece rest ih => exact (entersNone_write piece).bind fun _ => ih

end

end Drafting

namespace Fragment

/-! ## One step -/

section
variable {heap : Heap} {limit : Nat} {fragment : Fragment} {rest : List Fragment}
  {draft draft' : Draft}

/-- The fragments of a pair whose bracket is open: its elements, one level further down than it, and
the texts behind them. -/
def elements (first second : Word) (depth : Nat) : List Fragment :=
  [.value first (depth + 1), .text ", ", .value second (depth + 1), .text ")"]

/-- Writing the beginning of a fragment enters no pair and leaves no rest, or the fragment is a
value within the limit, and one pair is entered. -/
theorem write_cases (heap : Heap) (limit : Nat) (fragment : Fragment) :
    (∃ work : Drafting Unit, work.EntersNone ∧
      write heap limit fragment = (do work; return [])) ∨
    ∃ word depth visit first second, fragment = .value word depth ∧ depth < limit ∧
      write heap limit fragment =
        (do Draft.enter visit; Draft.write "("; return elements first second depth) := by
  cases fragment with
  | text piece => exact .inl ⟨_, Drafting.entersNone_write piece, rfl⟩
  | value word depth =>
    cases hkind : word.kind with
    | pair offset =>
      by_cases hdepth : limit ≤ depth
      · refine .inl ⟨throw (.depthExceeded limit), Drafting.entersNone_throw _, ?_⟩
        simp only [write, hkind, hdepth, ↓reduceIte]
        rfl
      · cases hpair : heap.pair? offset with
        | none =>
          refine .inl ⟨throw (.pairOutOfBounds word offset heap.size),
            Drafting.entersNone_throw _, ?_⟩
          simp only [write, hkind, hdepth, ↓reduceIte, hpair]
          rfl
        | some pair =>
          refine .inr ⟨word, depth, { offset, depth }, pair.1, pair.2, rfl,
            Nat.lt_of_not_le hdepth, ?_⟩
          simp only [write, hkind, hdepth, ↓reduceIte, hpair, elements]
    | int _ | closure | bool _ | invalid _ =>
      refine .inl ⟨_, Drafting.entersNone_writeAll word.kind.pieces, ?_⟩
      simp only [write, hkind]

/-- A step that succeeds takes a fragment off the stack, or puts those of a pair in its place. -/
theorem write_eq_ok (h : write heap limit fragment draft = .ok rest draft') :
    (rest = [] ∧ draft'.visits = draft.visits) ∨
      ∃ word depth visit first second, fragment = .value word depth ∧ depth < limit ∧
        rest = elements first second depth ∧ draft'.visits = draft.visits.push visit := by
  rcases write_cases heap limit fragment with ⟨work, hwork, heq⟩ |
    ⟨word, depth, visit, first, second, rfl, hdepth, heq⟩
  · rw [heq] at h
    obtain ⟨_, draft₁, hresult, h⟩ := Drafting.bind_eq_ok h
    cases h
    have hvisits := hwork draft
    rw [hresult] at hvisits
    exact .inl ⟨rfl, hvisits⟩
  · rw [heq, Drafting.enter_bind] at h
    obtain ⟨_, draft₁, hwritten, h⟩ := Drafting.bind_eq_ok h
    cases h
    have hvisits := Drafting.entersNone_write "(" { draft with visits := draft.visits.push visit }
    rw [hwritten] at hvisits
    exact .inr ⟨word, depth, visit, first, second, rfl, hdepth, rfl, hvisits⟩

/-- The values that a step puts on the stack are the elements of a pair within the limit. -/
theorem depth_of_mem_write {word element : Word} {depth inner : Nat}
    (h : write heap limit (.value word depth) draft = .ok rest draft')
    (hmem : .value element inner ∈ rest) : inner = depth + 1 ∧ depth + 1 ≤ limit := by
  rcases write_eq_ok h with ⟨rfl, -⟩ | ⟨_, _, visit, first, second, hvalue, hdepth, rfl, -⟩
  · cases hmem
  · cases hvalue
    refine ⟨?_, hdepth⟩
    simp only [elements, List.mem_cons, value.injEq, reduceCtorEq, List.not_mem_nil, false_or,
      or_false] at hmem
    rcases hmem with ⟨-, rfl⟩ | ⟨-, rfl⟩ <;> rfl

/-- A step that fails may have entered the pair of a value within the limit. -/
theorem write_eq_error {fault : Fault} (h : write heap limit fragment draft = .error fault draft') :
    draft'.visits = draft.visits ∨
      ∃ word depth visit, fragment = .value word depth ∧ depth < limit ∧
        draft'.visits = draft.visits.push visit := by
  rcases write_cases heap limit fragment with ⟨work, hwork, heq⟩ |
    ⟨word, depth, visit, first, second, rfl, hdepth, heq⟩
  · have hvisits := (hwork.bind fun _ => Drafting.entersNone_pure ([] : List Fragment)) draft
    rw [← heq, h] at hvisits
    exact .inl hvisits
  · -- the pair is entered before its bracket is found not to fit
    rw [heq, Drafting.enter_bind] at h
    have hvisits := ((Drafting.entersNone_write "(").bind fun _ =>
      Drafting.entersNone_pure (elements first second depth))
        { draft with visits := draft.visits.push visit }
    rw [h] at hvisits
    exact .inr ⟨word, depth, visit, rfl, hdepth, hvisits⟩

end

/-! ## The weight of a value -/

/-- A value with so many levels left comes to four fragments for each pair that it can have, and to
one besides. -/
theorem valueWeight_eq (levels : Nat) : valueWeight levels + 3 = 4 * 2 ^ levels := by
  induction levels with
  | zero => rfl
  | succ levels ih =>
    rw [valueWeight, pow_succ]
    omega

/-- Entering a pair takes at least this weight. -/
theorem le_weight_value {limit depth : Nat} (word : Word) (hdepth : depth < limit) :
    5 ≤ (value word depth).weight limit := by
  have hlevels : limit - depth = limit - (depth + 1) + 1 := by omega
  have := valueWeight_pos (limit - (depth + 1))
  rw [weight, hlevels, valueWeight]
  omega

/-- Every fragment weighs something, so a stack is no longer than it weighs. -/
theorem length_le_totalWeight (limit : Nat) (stack : List Fragment) :
    stack.length ≤ totalWeight limit stack := by
  induction stack with
  | nil => exact Nat.le_refl 0
  | cons fragment below ih =>
    have := fragment.weight_pos limit
    rw [List.length_cons, totalWeight]
    omega

/-! ## Stacks that stay low -/

/-- What lies below a value was left there by the pairs around it, at most three fragments by each,
and below a text by no more pairs than the limit allows. -/
inductive Tiered (limit : Nat) : List Fragment → Prop where
  | nil : Tiered limit []
  | text {piece : String} {below : List Fragment} : below.length ≤ 3 * limit →
    Tiered limit below → Tiered limit (.text piece :: below)
  | value {word : Word} {depth : Nat} {below : List Fragment} : depth ≤ limit →
    below.length ≤ 3 * depth → Tiered limit below → Tiered limit (.value word depth :: below)

section
variable {heap : Heap} {limit : Nat} {fragment : Fragment} {stack below rest : List Fragment}
  {draft draft' : Draft}

/-- The stack of a root alone is tiered. -/
theorem tiered_root (limit : Nat) (word : Word) : Tiered limit [.value word 0] :=
  .value (Nat.zero_le limit) (Nat.le_refl 0) .nil

/-- A tiered stack stays so without its top. -/
theorem Tiered.tail (h : Tiered limit (fragment :: below)) : Tiered limit below := by
  cases h with
  | text _ h | value _ _ h => exact h

/-- The bound on the height of a stack. -/
theorem Tiered.length_le (h : Tiered limit stack) : stack.length ≤ 3 * limit + 1 := by
  cases h with
  | nil => exact Nat.zero_le _
  | text hlength => exact Nat.succ_le_succ hlength
  | value hdepth hlength =>
    rw [List.length_cons]
    omega

/-- No value on the stack lies inside more pairs than the limit allows. -/
theorem Tiered.depth_le {word : Word} {depth : Nat} (h : Tiered limit stack)
    (hmem : .value word depth ∈ stack) : depth ≤ limit := by
  induction h with
  | nil => cases hmem
  | text _ _ ih =>
    rcases List.mem_cons.1 hmem with heq | hmem
    · cases heq
    · exact ih hmem
  | value hdepth _ _ ih =>
    rcases List.mem_cons.1 hmem with heq | hmem
    · cases heq
      exact hdepth
    · exact ih hmem

/-- The fragments of a pair within the limit lie on a tier of their own. -/
theorem Tiered.elements {word first second : Word} {depth : Nat}
    (h : Tiered limit (.value word depth :: below)) (hdepth : depth < limit) :
    Tiered limit (elements first second depth ++ below) := by
  cases h with
  | value _ hlength hbelow =>
    have hclosing : Tiered limit (.text ")" :: below) := .text (by omega) hbelow
    have hsecond : Tiered limit (.value second (depth + 1) :: .text ")" :: below) :=
      .value hdepth (by rw [List.length_cons]; omega) hclosing
    have hcomma : Tiered limit (.text ", " :: .value second (depth + 1) :: .text ")" :: below) :=
      .text (by rw [List.length_cons, List.length_cons]; omega) hsecond
    refine .value hdepth ?_ hcomma
    change (.text ", " :: .value second (depth + 1) :: .text ")" :: below).length ≤ _
    rw [List.length_cons, List.length_cons, List.length_cons]
    omega

/-- A step keeps the tiers. -/
theorem Tiered.write (h : Tiered limit (fragment :: below))
    (hwrite : write heap limit fragment draft = .ok rest draft') :
    Tiered limit (rest ++ below) := by
  rcases write_eq_ok hwrite with ⟨rfl, -⟩ | ⟨word, depth, visit, first, second, rfl, hdepth, rfl, -⟩
  · exact h.tail
  · exact h.elements hdepth

end

/-! ## Many steps -/

section
variable {heap : Heap} {limit count : Nat} {stack stack' : List Fragment} {word : Word}
  {draft draft' : Draft}

/-- Tiers last through all steps. -/
theorem Steps.tiered (h : Steps heap limit stack draft count stack' draft')
    (hstack : Tiered limit stack) : Tiered limit stack' := by
  induction h with
  | start => exact hstack
  | next _ hwrite ih => exact ih.write hwrite

/-- The fragments taken off the stack and those still on it are the first ones and four for each
pair entered. -/
theorem Steps.count_add_length (h : Steps heap limit stack draft count stack' draft') :
    ∃ entered, draft'.visits.size = draft.visits.size + entered ∧
      count + stack'.length = stack.length + 4 * entered := by
  induction h with
  | start => exact ⟨0, rfl, Nat.zero_add _⟩
  | next _ hwrite ih =>
    obtain ⟨entered, hvisits, hcount⟩ := ih
    rw [List.length_cons] at hcount
    rcases write_eq_ok hwrite with ⟨rfl, hsame⟩ | ⟨_, _, visit, _, _, rfl, -, rfl, hpush⟩
    · refine ⟨entered, hsame ▸ hvisits, ?_⟩
      rw [List.nil_append]
      omega
    · refine ⟨entered + 1, ?_, ?_⟩
      · rw [hpush, Array.size_push, hvisits, Nat.add_assoc]
      · rw [List.length_append, elements, List.length_cons, List.length_cons, List.length_cons,
          List.length_cons, List.length_nil]
        omega

/-- Every step takes something from the weight of the stack. -/
theorem Steps.count_add_totalWeight (h : Steps heap limit stack draft count stack' draft') :
    count + totalWeight limit stack' ≤ totalWeight limit stack := by
  induction h with
  | start => exact Nat.le_of_eq (Nat.zero_add _)
  | next _ hwrite ih =>
    have hless := totalWeight_write hwrite
    rw [totalWeight] at ih
    rw [totalWeight_append]
    omega

/-- The pairs entered on the way through a value bound the fragments that were taken off the stack,
and the levels bound the pairs. -/
theorem Ends.bounds {result : EStateM.Result Fault Draft Unit}
    (h : Ends heap limit [.value word 0] draft count result) :
    ∃ entered, (Drafting.left result).visits.size = draft.visits.size + entered ∧
      count ≤ 4 * entered + 1 ∧ entered ≤ 2 ^ limit - 1 := by
  have hroot : totalWeight limit [.value word 0] + 3 = 4 * 2 ^ limit := valueWeight_eq limit
  cases h with
  | empty hsteps =>
    obtain ⟨entered, hvisits, hcount⟩ := hsteps.count_add_length
    have hweight := hsteps.count_add_totalWeight
    rw [List.length_nil, List.length_singleton] at hcount
    exact ⟨entered, hvisits, by omega, by omega⟩
  | @failed count fragment below _ _ _ hsteps hfailed =>
    obtain ⟨entered, hvisits, hcount⟩ := hsteps.count_add_length
    have hweight := hsteps.count_add_totalWeight
    have hbelow := length_le_totalWeight limit below
    have hfragment := fragment.weight_pos limit
    rw [List.length_cons, List.length_singleton] at hcount
    rw [totalWeight] at hweight
    rcases write_eq_error hfailed with hsame | ⟨word, depth, visit, rfl, hdepth, hpush⟩
    · exact ⟨entered, by rw [← hvisits]; exact congrArg Array.size hsame, by omega, by omega⟩
    · -- the pair entered last left nothing on the stack, but it had the weight for it
      have hvalue := le_weight_value word hdepth
      refine ⟨entered + 1, ?_, by omega, by omega⟩
      rw [Drafting.left, hpush, Array.size_push, hvisits, Nat.add_assoc]

end

end Fragment

/-- Rendering ends as the work on its stack does. -/
theorem render_eq_writeAll (word : Word) (heap : Heap) (limit : DepthLimit) (draft : Draft) :
    render word heap limit draft =
      match Fragment.writeAll heap (limit.levels heap.size) [.value word 0] draft with
      | .ok () draft' => .ok word draft'
      | .error fault draft' => .error fault draft' := by
  change EStateM.bind _ _ draft = _
  unfold EStateM.bind
  cases Fragment.writeAll heap (limit.levels heap.size) [.value word 0] draft with
  | ok _ _ => rfl
  | error _ _ => rfl

/-- Rendering comes to an end on every heap and draft. It takes at most `4 * entered + 1` fragments
off the stack if it enters that many pairs, and it enters fewer than `2 ^ levels`. All the while
there are at most `3 * levels + 1` fragments on the stack, and every value among them lies inside at
most `levels` pairs. So the depth of the elements, when a step puts them on the stack, stays in the
range of 64 bits if the number of levels does, and so does the offset of the second element. -/
theorem Fragment.work_bounded (word : Word) (heap : Heap) (limit : DepthLimit) (draft : Draft) :
    let levels := limit.levels heap.size
    let root : List Fragment := [.value word 0]
    (∃ count result, Ends heap levels root draft count result) ∧
      (∀ count result, Ends heap levels root draft count result →
        (render word heap limit draft =
          match result with
          | .ok () draft' => .ok word draft'
          | .error fault draft' => .error fault draft') ∧
        ∃ entered, (Drafting.left result).visits.size = draft.visits.size + entered ∧
          count ≤ 4 * entered + 1 ∧ entered ≤ 2 ^ levels - 1) ∧
      ∀ count stack draft', Steps heap levels root draft count stack draft' →
        stack.length ≤ 3 * levels + 1 ∧
          ∀ part depth, .value part depth ∈ stack → depth ≤ levels ∧
            (∀ rest draft'', write heap levels (.value part depth) draft' = .ok rest draft'' →
              ∀ element inner, .value element inner ∈ rest →
                inner = depth + 1 ∧ inner ≤ levels ∧ (levels < 2 ^ 64 → inner < 2 ^ 64)) ∧
            ∀ offset, part.kind = .pair offset → offset.toNat + 1 < 2 ^ 64 := by
  intro levels root
  refine ⟨?_, ?_, ?_⟩
  · obtain ⟨count, hends⟩ := exists_ends heap levels root draft
    exact ⟨count, _, hends⟩
  · intro count result h
    refine ⟨?_, h.bounds⟩
    rw [← h.writeAll_eq]
    exact render_eq_writeAll word heap limit draft
  · intro count stack draft' h
    have htiered := h.tiered (tiered_root levels word)
    refine ⟨htiered.length_le, fun part depth hmem => ⟨htiered.depth_le hmem, ?_, ?_⟩⟩
    · intro rest draft'' hwrite element inner hinner
      obtain ⟨rfl, hle⟩ := depth_of_mem_write hwrite hinner
      exact ⟨rfl, hle, fun hlevels => Nat.lt_of_le_of_lt hle hlevels⟩
    · intro offset _
      have := offset.toNat_lt
      omega

end TaggedValues
