import TaggedValues.Proofs.Run

/-!
# Runs of images

An image is loaded as far as the heap reaches: nothing else on the heap changes, and one warning
tells of words that were dropped (`Program.execute_image`). An image that fits into the heap is
loaded without a warning, and what is printed is its result against the heap so filled
(`Program.run_image`). As long as its words have offsets, these are its words with zeros behind them
(`Heap.fill_zeroed`). On a machine with a reliable output the run
writes the text of the result and a line feed (`Program.run_image_of_render_eq_ok`), or nothing if
the result cannot be rendered (`Program.run_image_of_render_eq_error`).
-/

namespace TaggedValues

namespace Event

/-- The events of a run of an image that fits into its heap of `words` words. -/
def ofImageRun (image : Image) (words : Nat) (printing : Printing) : List Event :=
  [heapAcquired words, running, returned image.result] ++
    printing.visits.toList.map pairEntered ++ warnings printing.result ++ [heapReleased words]

/-- None of them tells of dropped words. -/
theorem wordsDropped_not_mem_ofImageRun (image : Image) (words : Nat) (printing : Printing)
    (cause : Fault) : wordsDropped cause ∉ ofImageRun image words printing := by
  cases hresult : printing.result <;> simp [ofImageRun, warnings, hresult]

end Event

/-! ## Loading -/

/-- A heap filled with words is short of one of them when there are more words than fit. -/
theorem Heap.exists_getElem?_fill_ne_iff (heap : Heap) {words : List Word}
    (h : words.length ≤ UInt32.size) :
    (∃ k < words.length, (heap.fill words).words[k]? ≠ words[k]?) ↔
      heap.size < words.length := by
  constructor
  · rintro ⟨k, hk, hne⟩
    refine Nat.lt_of_not_le fun hle => hne ?_
    rw [getElem?_fill heap h, if_pos ⟨Nat.lt_of_lt_of_le hk hle, hk⟩]
  · intro hlt
    have hnone : (heap.fill words).words[heap.size]? = none :=
      Array.getElem?_eq_none (Nat.le_of_eq (heap.size_fill words))
    refine ⟨heap.size, hlt, ?_⟩
    rw [hnone, List.getElem?_eq_getElem hlt]
    exact (Option.some_ne_none _).symm

namespace Program

/-- An image is executed by loading it, and its first word is the result. -/
theorem execute_image_eq (image : Image) (machine : Machine) :
    (Program.image image).execute machine =
      .ok { word := image.result } { machine with
        heap := machine.heap.fill image.heap
        events := machine.events ++ (Event.drops (image.fits machine.heap.size)).toArray } := by
  rw [execute, Work.bind_of_ok (Work.load_eq image machine)]
  rfl

/-- An image whose words have offsets returns its result and puts the words of its heap at the
offsets from 0 on, as far as the heap reaches. Everything else stays as it was. The record tells
once that words were dropped, with the numbers that the size check gives, just when a word is not
where it belongs, and just then the size check fails. -/
theorem execute_image (image : Image) (machine : Machine)
    (hoffsets : image.heap.length ≤ UInt32.size) :
    let size := machine.heap.size
    let tooLarge : Fault := .imageTooLarge image.heap.length size
    ∃ (loaded : Machine) (own : List Event),
      (Program.image image).execute machine = .ok { word := image.result } loaded ∧
        loaded = { machine with heap := loaded.heap, events := loaded.events } ∧
        loaded.heap.size = size ∧
        (∀ k, k < image.heap.length → k < size → loaded.heap.words[k]? = image.heap[k]?) ∧
        (∀ k, ¬ (k < image.heap.length ∧ k < size) →
          loaded.heap.words[k]? = machine.heap.words[k]?) ∧
        loaded.events.toList = machine.events.toList ++ own ∧
        let dropped := ∃ k < image.heap.length, loaded.heap.words[k]? ≠ image.heap[k]?
        (own = [.wordsDropped tooLarge] ↔ dropped) ∧ (own = [] ↔ ¬ dropped) ∧
          (image.fits size = .error tooLarge ↔ dropped) ∧ (image.fits size = .ok () ↔ ¬ dropped) := by
  intro size tooLarge
  have hdropped := machine.heap.exists_getElem?_fill_ne_iff hoffsets
  have herror : image.fits size = .error tooLarge ↔ size < image.heap.length :=
    Image.fits_eq_error_iff
  have hok : image.fits size = .ok () ↔ ¬ size < image.heap.length :=
    Image.fits_eq_ok_iff.trans Nat.not_lt.symm
  refine ⟨_, _, execute_image_eq image machine, rfl, Heap.size_fill _ _, fun k hk hsize => ?_,
    fun k hout => ?_, Array.toList_append, ?_, ?_, herror.trans hdropped.symm,
    hok.trans (not_congr hdropped.symm)⟩
  · exact (machine.heap.getElem?_fill hoffsets k).trans (if_pos ⟨hsize, hk⟩)
  · exact (machine.heap.getElem?_fill hoffsets k).trans (if_neg fun h => hout h.symm)
  · rw [hdropped, ← herror]
    cases hfits : image.fits size <;> simp [Event.drops]
  · rw [hdropped, ← hok]
    cases hfits : image.fits size <;> simp [Event.drops]

/-- Of three words the last is dropped when the heap has two, whatever that held. -/
theorem execute_image_dropped :
    let image : Image := { result := ⟨1⟩, heap := [⟨20⟩, ⟨40⟩, ⟨60⟩] }
    let machine : Machine := { heap := ⟨#[⟨7⟩, ⟨7⟩]⟩ }
    image.heap.length ≤ UInt32.size ∧
      ∃ loaded, (Program.image image).execute machine = .ok { word := ⟨1⟩ } loaded ∧
        loaded.heap.size = 2 ∧ loaded.heap.words[0]? = some ⟨20⟩ ∧
        loaded.heap.words[1]? = some ⟨40⟩ ∧
        loaded.events.toList = [.wordsDropped (.imageTooLarge 3 2)] := by
  intro image machine
  have hoffsets : image.heap.length ≤ UInt32.size := by decide
  obtain ⟨loaded, own, hexecute, -, hsize, hput, -, hevents, hwarned, -, hfits, -⟩ :=
    execute_image image machine hoffsets
  have hown : own = [.wordsDropped (.imageTooLarge 3 2)] := hwarned.2 (hfits.1 rfl)
  exact ⟨hoffsets, loaded, hexecute, hsize, hput 0 (by decide) (by decide),
    hput 1 (by decide) (by decide), hevents.trans hown⟩

/-! ## Runs -/

/-- Whether or not an image fits, its result is printed against a heap filled with its words as far
as that reaches. -/
theorem exists_run_image (image : Image) {words : Nat} (limit : DepthLimit) (machine : Machine)
    (hwords : Heap.Allocatable words) :
    let printing := print image.result ((Heap.zeroed words).fill image.heap) limit machine.output
    ∃ stopped, (Program.image image).run words limit machine =
        .ok { result := printing.result } stopped ∧ stopped.output = printing.sink :=
  ⟨_, run_of_execute_eq_ok hwords (execute_image_eq image _), rfl⟩

section
variable {image : Image} {words : Nat} {limit : DepthLimit} {draft : Draft}

/-- The result of an image that fits is printed against a heap filled with its words. -/
theorem run_image (limit : DepthLimit) (machine : Machine) (hwords : Heap.Allocatable words)
    (hlength : image.heap.length ≤ words) :
    let printing := print image.result ((Heap.zeroed words).fill image.heap) limit machine.output
    ∃ stopped, (Program.image image).run words limit machine =
        .ok { result := printing.result } stopped ∧
      stopped.output = printing.sink ∧ stopped.reports = machine.reports ∧
      stopped.events.toList = machine.events.toList ++ Event.ofImageRun image words printing := by
  have hfits : image.fits words = .ok () := Image.fits_eq_ok_iff.2 hlength
  refine ⟨_, run_of_execute_eq_ok hwords (execute_image_eq image _), rfl, rfl, ?_⟩
  simp [Machine.started, Event.ofImageRun, hfits, Event.drops]

/-- A run of an image whose result can be rendered writes the text of the result and a line feed to
a reliable output. -/
theorem run_image_of_render_eq_ok {word : Word} (machine : Machine)
    (hwords : Heap.Allocatable words) (hlength : image.heap.length ≤ words)
    (houtput : machine.output.Reliable)
    (hrender : render image.result ((Heap.zeroed words).fill image.heap) limit {} =
      .ok word draft) :
    ∃ stopped, (Program.image image).run words limit machine =
        .ok { result := .ok image.result } stopped ∧
      stopped.output.received = machine.output.received ++ (draft.text ++ "\n").toUTF8 ∧
      stopped.reports = machine.reports := by
  obtain ⟨stopped, hrun, hsink, hreports, -⟩ := run_image limit machine hwords hlength
  obtain ⟨hreceived, hresult⟩ := print_of_reliable houtput hrender
  rw [hresult] at hrun
  exact ⟨stopped, hrun, by rw [hsink, hreceived], hreports⟩

/-- A run of an image whose result cannot be rendered writes nothing. -/
theorem run_image_of_render_eq_error {fault : Fault} (machine : Machine)
    (hwords : Heap.Allocatable words) (hlength : image.heap.length ≤ words)
    (hrender : render image.result ((Heap.zeroed words).fill image.heap) limit {} =
      .error fault draft) :
    ∃ stopped, (Program.image image).run words limit machine =
        .ok { result := .error fault } stopped ∧
      stopped.output = machine.output ∧ stopped.reports = machine.reports := by
  obtain ⟨stopped, hrun, hsink, hreports, -⟩ := run_image limit machine hwords hlength
  rw [print_of_render_eq_error hrender] at hrun hsink
  exact ⟨stopped, hrun, hsink, hreports⟩

end

end Program

end TaggedValues
