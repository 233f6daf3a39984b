import TaggedValues.Heap.Reach
import TaggedValues.Proofs.Render.Limit

/-!
# Where rendering stops

A fault of rendering belongs to a place of the value: there stands a pair that lies outside the
heap, or inside as many others as the limit allows (`Heap.StopsAt`), and no pair before it, from
left to right, is at fault (`Heap.ClearTo`). The place is found by the same descent as the fault: it
goes on to the first element if the fault is there, and to the second if the first is complete
(`Heap.exists_stopsAt`).
-/

namespace TaggedValues

namespace Heap

/-- The pair at the place is where a value with so many levels left has to stop under the limit, and
the fault says why. -/
inductive StopsAt (heap : Heap) (limit levels : Nat) (root : Word) (place : Place) :
    Fault → Prop where
  | outside {part : Word} {offset : UInt32} : heap.At root place part →
    part.kind = .pair offset → heap.pair? offset = none → place.length < levels →
    StopsAt heap limit levels root place (.pairOutOfBounds part offset heap.size)
  | tooDeep {part : Word} {offset : UInt32} : heap.At root place part →
    part.kind = .pair offset → place.length = levels →
    StopsAt heap limit levels root place (.depthExceeded limit)

/-- Every pair before the place lies inside the heap, and inside fewer than `levels` others. -/
def ClearTo (heap : Heap) (levels : Nat) (root : Word) (place : Place) : Prop :=
  ∀ earlier part offset, earlier.Before place → heap.At root earlier part →
    part.kind = .pair offset → earlier.length < levels ∧ offset.toNat + 1 < heap.size

section
variable {heap : Heap} {root : Word} {offset : UInt32} {pair : Word × Word} {turn : Turn}
  {limit levels depth : Nat} {place : Place} {fault : Fault}

/-! ## From an element to its pair -/

/-- A walk that stops in an element stops in the pair, one turn further down. -/
theorem StopsAt.of_element (hkind : root.kind = .pair offset)
    (hpair : heap.pair? offset = some pair)
    (h : heap.StopsAt limit levels (turn.pick pair) place fault) :
    heap.StopsAt limit (levels + 1) root (turn :: place) fault := by
  cases h with
  | outside hat hpart hout hlt =>
    exact .outside (.element hkind hpair hat) hpart hout (Nat.succ_lt_succ hlt)
  | tooDeep hat hpart heq =>
    exact .tooDeep (.element hkind hpair hat) hpart (congrArg (· + 1) heq)

/-- Nothing comes before the root. -/
theorem clearTo_root (heap : Heap) (levels : Nat) (root : Word) : heap.ClearTo levels root [] :=
  nofun

/-- What comes before a place in an element is the pair, all of the first element unless this is it,
and what comes before the place in the element itself. -/
theorem ClearTo.of_element (hkind : root.kind = .pair offset)
    (hpair : heap.pair? offset = some pair)
    (hfirst : turn = .first ∨ heap.Closed pair.1 ∧ heap.Shallow levels pair.1)
    (h : heap.ClearTo levels (turn.pick pair) place) :
    heap.ClearTo (levels + 1) root (turn :: place) := by
  intro earlier part offset' hbefore hat hpart
  cases hat with
  | root =>
    obtain rfl := Word.Kind.pair.inj (hkind.symm.trans hpart)
    exact ⟨Nat.succ_pos levels, lt_size_of_pair? hpair⟩
  | element hkind' hpair' hat =>
    obtain rfl := Word.Kind.pair.inj (hkind.symm.trans hkind')
    obtain rfl := Option.some.inj (hpair.symm.trans hpair')
    cases hbefore with
    | parts =>
      obtain ⟨hclosed, hshallow⟩ := hfirst.resolve_left Turn.noConfusion
      have hlt := hshallow _ part hat.inside ⟨offset', hpart⟩
      exact ⟨Nat.succ_lt_succ hlt, hclosed part offset' ⟨_, hat.inside⟩ hpart⟩
    | further hbefore =>
      obtain ⟨hlt, hsize⟩ := h _ _ _ hbefore hat hpart
      exact ⟨Nat.succ_lt_succ hlt, hsize⟩

/-! ## The place of a fault -/

/-- A fault belongs to a place with nothing at fault before it. -/
theorem exists_stopsAt (hdepth : depth ≤ limit)
    (hfault : (transcript heap limit root depth).fault? = some fault) :
    ∃ place, heap.StopsAt limit (limit - depth) root place fault ∧
      heap.ClearTo (limit - depth) root place := by
  fun_induction transcript heap limit root depth with
  | case1 root depth offset hkind hle =>
    cases hfault
    exact ⟨[], .tooDeep .root hkind (Nat.sub_eq_zero_of_le hle).symm, clearTo_root _ _ _⟩
  | case2 root depth offset hkind hlt hpair =>
    cases hfault
    exact ⟨[], .outside .root hkind hpair (Nat.sub_pos_of_lt (Nat.lt_of_not_le hlt)),
      clearTo_root _ _ _⟩
  | case3 root depth offset hkind hlt first second hpair ihFirst ihSecond =>
    have hlevels : limit - depth = limit - (depth + 1) + 1 := by omega
    rw [hlevels]
    rw [Transcript.fault?_brackets, Option.or_eq_some_iff] at hfault
    rcases hfault with hfirst | ⟨hnone, hsecond⟩
    · obtain ⟨place, hstops, hclear⟩ := ihFirst (Nat.lt_of_not_le hlt) hfirst
      exact ⟨.first :: place, .of_element hkind hpair hstops,
        .of_element hkind hpair (.inl rfl) hclear⟩
    · obtain ⟨place, hstops, hclear⟩ := ihSecond (Nat.lt_of_not_le hlt) hsecond
      exact ⟨.second :: place, .of_element hkind hpair hstops,
        .of_element hkind hpair (.inr (fault?_transcript_eq_none_iff.1 hnone)) hclear⟩
  | case4 root depth hscalar => cases hfault

end

end Heap

/-- When rendering into a draft without a bound fails, it does so at a pair of the value. The pair
lies inside fewer others than the limit allows and outside the heap, and the fault names its word,
its offset and the size of the heap; or it lies inside as many others as the limit allows, and the
fault names the limit. Every pair before it, from left to right, lies inside the heap and inside
fewer others than the limit allows. -/
theorem render_fault_at_place {word : Word} {heap : Heap} {limit : DepthLimit} {text : String}
    {visits : Array Visit} {fault : Fault} {draft : Draft}
    (h : render word heap limit { text, visits } = .error fault draft) :
    let levels := limit.levels heap.size
    ∃ place part offset, heap.At word place part ∧ part.kind = .pair offset ∧
      ((fault = .pairOutOfBounds part offset heap.size ∧ place.length < levels ∧
          part.bits.toNat = offset.toNat + 1 ∧ offset.toNat % 8 = 0 ∧
          heap.size ≤ offset.toNat + 1) ∨
        (fault = .depthExceeded levels ∧ place.length = levels)) ∧
      ∀ earlier part' offset', earlier.Before place → heap.At word earlier part' →
        part'.kind = .pair offset' →
        earlier.length < levels ∧ offset'.toNat + 1 < heap.size := by
  intro levels
  have hfault := exists_render_eq_error_iff.1 ⟨draft, h⟩
  obtain ⟨place, hstops, hclear⟩ := Heap.exists_stopsAt (Nat.zero_le levels) hfault
  rw [Nat.sub_zero] at hstops hclear
  cases hstops with
  | @outside part offset hat hkind hpair hlt =>
    obtain ⟨haligned, hbits⟩ := Word.kind_eq_pair_iff.1 hkind
    exact ⟨place, part, offset, hat, hkind,
      .inl ⟨rfl, hlt, hbits, haligned, Heap.pair?_eq_none_iff.1 hpair⟩, hclear⟩
  | @tooDeep part offset hat hkind heq =>
    exact ⟨place, part, offset, hat, hkind, .inr ⟨rfl, heq⟩, hclear⟩

/-- The first element of the pair is complete, and the second lies half outside the heap. -/
theorem render_fault_at_place_second :
    let zeros : List Word := List.replicate 6 ⟨0⟩
    let heap := (Heap.zeroed 17).fill ([⟨9⟩, ⟨17⟩] ++ zeros ++ [⟨2⟩, ⟨4⟩])
    render ⟨1⟩ heap .byHeap {} =
        .error (.pairOutOfBounds ⟨17⟩ 16 17)
          { text := "((1, 2), ", visits := #[⟨0, 0⟩, ⟨8, 1⟩] } ∧
      ∃ place, heap.At ⟨1⟩ place ⟨17⟩ ∧ place.length < 3 ∧
        ∀ earlier part offset, earlier.Before place → heap.At ⟨1⟩ earlier part →
          part.kind = .pair offset → earlier.length < 3 ∧ offset.toNat + 1 < 17 := by
  intro zeros heap
  have hrender : render ⟨1⟩ heap .byHeap {} =
      .error (.pairOutOfBounds ⟨17⟩ 16 17)
        { text := "((1, 2), ", visits := #[⟨0, 0⟩, ⟨8, 1⟩] } := by
    unfold heap zeros
    cbv
  have hsize : heap.size = 17 := by rw [Heap.size_fill, Heap.size_zeroed]
  have h := render_fault_at_place hrender
  rw [hsize] at h
  obtain ⟨place, part, offset, hat, -, houtside | hdeep, hclear⟩ := h
  · obtain ⟨hfault, hlength, -⟩ := houtside
    obtain ⟨rfl, -, -⟩ := Fault.pairOutOfBounds.inj hfault
    exact ⟨hrender, place, hat, hlength, hclear⟩
  · cases hdeep.1

end TaggedValues
