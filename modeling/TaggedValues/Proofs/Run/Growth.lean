import TaggedValues.Proofs.Render.Cutoff
import TaggedValues.Proofs.Render.Locality
import TaggedValues.Proofs.Run.Image

/-!
# Larger heaps

A heap that begins with the words of another one (`Heap.Begins`) has the same pairs in all places
inside that one, and the limit that it gives is no lower. So a value that can be rendered on the
first heap is rendered in the same way on the second (`Heap.Begins.render_eq`): none of its pairs
lies outside the first heap, so none is found among the words behind it.

An image on a larger heap, where fewer of its words are dropped, makes such a heap, so a run that
prints a line prints the same line on every larger heap (`Program.run_image_enlarged`).
-/

namespace TaggedValues

/-- The limit given by a larger heap is no lower. -/
theorem DepthLimit.levels_mono (limit : DepthLimit) {size size' : Nat} (hle : size ≤ size') :
    limit.levels size ≤ limit.levels size' := by
  cases limit with
  | byHeap => exact Nat.succ_le_succ (Nat.div_le_div_right hle)
  | fixed levels => exact Nat.le_refl levels

namespace Heap

/-- The second heap begins with the words of the first. -/
def Begins (heap heap' : Heap) : Prop :=
  ∀ k < heap.size, heap'.words[k]? = heap.words[k]?

section
variable {heap heap' : Heap} {word given : Word} {limit : DepthLimit}

/-- A heap is no larger than one it begins. -/
theorem Begins.size_le (h : heap.Begins heap') : heap.size ≤ heap'.size := by
  refine Nat.le_of_not_lt fun hlt => ?_
  have hnone : heap'.words[heap'.size]? = none := Array.getElem?_size
  rw [h _ hlt, Array.getElem?_eq_getElem hlt] at hnone
  cases hnone

/-- Pairs inside the first heap are the same in the second. -/
theorem Begins.pair? (h : heap.Begins heap') {offset : UInt32}
    (hoffset : offset.toNat + 1 < heap.size) : heap'.pair? offset = heap.pair? offset := by
  rw [Heap.pair?, h _ (Nat.lt_of_succ_lt hoffset), h _ hoffset]
  rfl

/-- A heap that begins another has the same pairs below every closed word. -/
theorem Begins.samePairs (h : heap.Begins heap') (hclosed : heap.Closed word) :
    heap.SamePairs heap' word :=
  fun part offset hreaches hkind => h.pair? (hclosed part offset hreaches hkind)

/-- What can be rendered on the first heap is rendered in the same way on the second. -/
theorem Begins.render_eq (h : heap.Begins heap') {text : String} {visits : Array Visit}
    {draft : Draft} (hrender : render word heap limit { text, visits } = .ok given draft) :
    render word heap' limit { text, visits } = .ok given draft := by
  have hfixed : render word heap (.fixed (limit.levels heap.size)) { text, visits } =
    .ok given draft := hrender
  have hclosed : heap.Closed word :=
    (fault?_transcript_eq_none_iff.1 (of_render_eq_ok hrender).1).1
  calc render word heap' limit { text, visits }
    _ = render word heap (.fixed (limit.levels heap'.size)) { text, visits } :=
      (h.samePairs hclosed).render_eq (.inr hclosed) rfl _
    _ = render word heap (.fixed (limit.levels heap.size)) { text, visits } := by
      refine (render_fixed_eq (limit.levels_mono h.size_le) fun draft herror => ?_).symm
      cases hfixed.symm.trans herror
    _ = .ok given draft := hfixed

/-- The same words make heaps of which a larger one begins with a smaller one: words are dropped
from their end, and zeros fill what they leave. -/
theorem begins_padded {size size' : Nat} (words : List Word) (hle : size ≤ size') :
    (padded size words).Begins (padded size' words) := by
  intro k hk
  rw [size_padded] at hk
  rw [getElem?_padded words hk, getElem?_padded words (Nat.lt_of_lt_of_le hk hle)]

end

end Heap

namespace Program

section
variable {image : Image} {words words' : Nat} {limit : DepthLimit} {machine stopped : Machine}
  {conclusion : Conclusion} {text : String}

/-- A run of an image whose words have offsets that prints a line on a reliable output prints the
same line and gives back the same word with every larger heap, also where its own heap was too small
for the words of the image. -/
theorem run_image_enlarged (hoffsets : image.heap.length ≤ UInt32.size)
    (houtput : machine.output.Reliable) (hle : words ≤ words') (hwords' : Heap.Allocatable words')
    (hrun : (Program.image image).run words limit machine = .ok conclusion stopped)
    (hline : stopped.output.received = machine.output.received ++ (text ++ "\n").toUTF8) :
    conclusion.result = .ok image.result ∧
      ∀ machine' : Machine, machine'.output.Reliable →
        ∃ stopped', (Program.image image).run words' limit machine' = .ok conclusion stopped' ∧
          stopped'.output.received = machine'.output.received ++ (text ++ "\n").toUTF8 := by
  have hwords : Heap.Allocatable words := Nat.le_trans (Nat.mul_le_mul_left 4 hle) hwords'
  obtain ⟨_, hrun₀, hsink⟩ := exists_run_image image limit machine hwords
  cases hrun.symm.trans hrun₀
  rw [hsink] at hline
  cases hrender : render image.result ((Heap.zeroed words).fill image.heap) limit {} with
  | error fault draft =>
    -- nothing was written, but a line is never empty
    rw [print_of_render_eq_error hrender] at hline
    have hempty : ByteArray.empty = (text ++ "\n").toUTF8 :=
      (ByteArray.append_right_inj machine.output.received).1 (ByteArray.append_empty.trans hline)
    have hne : "" ≠ text ++ "\n" := by simp
    exact absurd (String.toByteArray_inj.1 hempty) hne
  | ok given draft =>
    obtain ⟨hreceived, hresult⟩ := print_of_reliable houtput hrender
    have htext : (draft.text ++ "\n").toUTF8 = (text ++ "\n").toUTF8 :=
      (ByteArray.append_right_inj _).1 (hreceived.symm.trans hline)
    refine ⟨hresult, fun machine' houtput' => ?_⟩
    rw [Heap.fill_zeroed words hoffsets] at hrender
    have hrender' := (Heap.begins_padded image.heap hle).render_eq hrender
    rw [← Heap.fill_zeroed words' hoffsets] at hrender'
    obtain ⟨hreceived', hresult'⟩ := print_of_reliable houtput' hrender'
    obtain ⟨stopped', hrun', hsink'⟩ := exists_run_image image limit machine' hwords'
    rw [hresult'] at hrun'
    rw [hresult]
    exact ⟨stopped', hrun', by rw [hsink', hreceived', htext]⟩

end

/-- A heap of two words, for a pair with another one behind it that is dropped, and a heap with room
for both. -/
theorem run_image_enlarged_dropped :
    let heap : List Word := [⟨2⟩, ⟨4⟩] ++ List.replicate 6 ⟨0⟩ ++ [⟨1⟩, ⟨1⟩]
    let image : Image := { result := ⟨1⟩, heap }
    image.heap.length ≤ UInt32.size ∧ ∃ stopped stopped',
      (Program.image image).run 2 .byHeap {} = .ok { result := .ok ⟨1⟩ } stopped ∧
      stopped.output.received = "(1, 2)\n".toUTF8 ∧
      (Program.image image).run 16 .byHeap {} = .ok { result := .ok ⟨1⟩ } stopped' ∧
      stopped'.output.received = "(1, 2)\n".toUTF8 := by
  intro heap image
  have hrender : render image.result ((Heap.zeroed 2).fill image.heap) .byHeap {} =
      .ok ⟨1⟩ { text := "(1, 2)", visits := #[⟨0, 0⟩] } := by
    unfold image heap
    cbv
  have hoffsets : image.heap.length ≤ UInt32.size := by decide
  have hwords : Heap.Allocatable 2 := by decide
  have hwords' : Heap.Allocatable 16 := by decide
  obtain ⟨hreceived, hresult⟩ := print_of_reliable Sink.reliable_default hrender
  obtain ⟨stopped, hrun, hsink⟩ := exists_run_image image .byHeap {} hwords
  have hline : stopped.output.received = ByteArray.empty ++ ("(1, 2)" ++ "\n").toUTF8 := by
    rw [hsink]
    exact hreceived
  obtain ⟨-, hlarger⟩ :=
    run_image_enlarged hoffsets Sink.reliable_default (by decide) hwords' hrun hline
  obtain ⟨stopped', hrun', hline'⟩ := hlarger {} Sink.reliable_default
  rw [hresult] at hrun hrun'
  have htext : ByteArray.empty ++ ("(1, 2)" ++ "\n").toUTF8 = "(1, 2)\n".toUTF8 := by decide
  exact ⟨hoffsets, stopped, stopped', hrun, hline.trans htext, hrun', hline'.trans htext⟩

end Program

end TaggedValues
