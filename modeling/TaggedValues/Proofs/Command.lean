import TaggedValues.Command.Ending
import TaggedValues.Proofs.Tree.Placement

/-!
# What the command shows

Every way in which the work on an image can end has its rule (`Command.exists_ends`), and the
command shows an ending when the rules come to it (`Command.tells_of_ends`). Different endings look
different (`Command.Outcome.Tells.unique`), so what the command shows is as good as the rules
(`Command.invoke_tells`).
-/

namespace TaggedValues

/-- A block of memory can hold the words when there are less than two to the power of 61 of them. -/
theorem Heap.allocatable_iff {words : Nat} :
    Heap.Allocatable words ↔ words < 0x2000000000000000 := by
  unfold Heap.Allocatable Heap.maxBytes
  omega

/-- The bytes of a text are read as that text and as no other. -/
theorem fromUTF8?_eq_some_iff {bytes : ByteArray} {text : String} :
    String.fromUTF8? bytes = some text ↔ bytes = text.toUTF8 := by
  unfold String.fromUTF8?
  constructor
  · intro h
    split at h
    · cases h
      rfl
    · cases h
  · rintro rfl
    exact dif_pos text.isValidUTF8

namespace Command

section
variable {surroundings : Surroundings} {options : Options} {directives : List Log.Directive}
  {text : String} {input : Image} {cause : Fault} {ending : Ending}

/-! ## The image -/

/-- A source is text, or else there is no file or its bytes are not text. -/
theorem source_eq (surroundings : Surroundings) (options : Options) :
    source surroundings options =
      match content? surroundings options with
      | none => .error (.transfer .missingFile)
      | some bytes =>
        match String.fromUTF8? bytes with
        | none => .error (.transfer .notText)
        | some text => .ok text := by
  unfold source content?
  cases options.image <;> rfl

/-- Bytes that are the UTF-8 of a text are read as the text. -/
theorem source_of_content (h : content? surroundings options = some text.toUTF8) :
    source surroundings options = .ok text := by
  have htext : String.fromUTF8? text.toUTF8 = some text := fromUTF8?_eq_some_iff.2 rfl
  rw [source_eq, h]
  simp only [htext]

/-- A source with the bytes of a text gives the image of the text, if it fits the heap. -/
theorem image_of_content (h : content? surroundings options = some text.toUTF8) :
    image surroundings options =
      (do
        let input ← Image.ofText text
        input.fits options.heapWords
        return input) := by
  rw [image, source_of_content h]
  rfl

/-- An image that was read has to fit. -/
theorem image_of_reads (h : Reads surroundings options input) :
    image surroundings options = (do input.fits options.heapWords; return input) := by
  obtain ⟨text, hcontent, himage⟩ := h
  rw [image_of_content hcontent, himage]
  rfl

/-- What the command does once its directives are read, by the image and by the run. -/
theorem perform_eq (surroundings : Surroundings) (options : Options)
    (directives : List Log.Directive) :
    perform none surroundings options directives =
      match image surroundings options with
      | .error fault => { code := 1, reports := #[fault] }
      | .ok image =>
        .ofRun directives
          ((Program.image image).run options.heapWords options.depthLimit {}) :=
  rfl

/-- Without an image there is a report of the fault. -/
theorem tells_of_image_eq_error (h : image surroundings options = .error cause) :
    (perform none surroundings options directives).Tells (.failed cause) := by
  rw [perform_eq, h]
  exact ⟨rfl, rfl, rfl⟩

/-- An image that was read and fits is run. -/
theorem perform_of_reads (h : Reads surroundings options input)
    (hlength : input.heap.length ≤ options.heapWords) :
    perform none surroundings options directives =
      .ofRun directives ((Program.image input).run options.heapWords options.depthLimit {}) := by
  have hfits : input.fits options.heapWords = .ok () := Image.fits_eq_ok_iff.2 hlength
  have himage : image surroundings options = .ok input := by
    rw [image_of_reads h, hfits]
    rfl
  rw [perform_eq, himage]

/-- An image whose result can be rendered on the heap filled with its words is printed. -/
theorem tells_of_render_eq_ok {word : Word} {draft : Draft}
    (h : Reads surroundings options input) (hlength : input.heap.length ≤ options.heapWords)
    (hsize : options.heapWords < 0x2000000000000000)
    (hrender : render input.result ((Heap.zeroed options.heapWords).fill input.heap)
      options.depthLimit {} = .ok word draft) :
    (perform none surroundings options directives).Tells (.printed draft.text) := by
  obtain ⟨stopped, hrun, hreceived, hreports⟩ :=
    Program.run_image_of_render_eq_ok {} (Heap.allocatable_iff.2 hsize) hlength
      Sink.reliable_default hrender
  rw [perform_of_reads h hlength, hrun]
  exact ⟨rfl, hreceived.trans (ByteArray.empty_append ..), hreports⟩

/-- Where it cannot, there is a report of the fault. -/
theorem tells_of_render_eq_error {draft : Draft}
    (h : Reads surroundings options input) (hlength : input.heap.length ≤ options.heapWords)
    (hsize : options.heapWords < 0x2000000000000000)
    (hrender : render input.result ((Heap.zeroed options.heapWords).fill input.heap)
      options.depthLimit {} = .error cause draft) :
    (perform none surroundings options directives).Tells (.failed cause) := by
  obtain ⟨stopped, hrun, houtput, hreports⟩ :=
    Program.run_image_of_render_eq_error {} (Heap.allocatable_iff.2 hsize) hlength hrender
  rw [perform_of_reads h hlength, hrun]
  exact ⟨rfl, congrArg Sink.received houtput, congrArg (Array.push · _) hreports⟩

/-! ## Endings -/

/-- One of the rules applies. -/
theorem exists_ends (surroundings : Surroundings) (options : Options) :
    ∃ ending, Ends surroundings options ending := by
  cases hcontent : content? surroundings options with
  | none => exact ⟨_, .missing hcontent⟩
  | some bytes =>
    by_cases htext : ∃ text : String, bytes = text.toUTF8
    · obtain ⟨text, rfl⟩ := htext
      cases himage : Image.ofText text with
      | error cause => exact ⟨_, .noImage hcontent himage⟩
      | ok input =>
        have hreads : Reads surroundings options input := ⟨text, hcontent, himage⟩
        rcases Nat.lt_or_ge options.heapWords input.heap.length with hlt | hle
        · exact ⟨_, .tooLarge hreads hlt⟩
        · rcases Nat.lt_or_ge options.heapWords 0x2000000000000000 with hsize | hsize
          · cases hrender : render input.result (.padded options.heapWords input.heap)
              options.depthLimit {} with
            | error cause draft => exact ⟨_, .notRendered hreads hle hsize hrender⟩
            | ok word draft => exact ⟨_, .printed hreads hle hsize hrender⟩
          · exact ⟨_, .overflowed hreads hle hsize⟩
    · exact ⟨_, .notText hcontent fun text heq => htext ⟨text, heq⟩⟩

/-- Different endings look different. -/
theorem Outcome.Tells.unique {outcome : Outcome} {ending' : Ending} (h : outcome.Tells ending)
    (h' : outcome.Tells ending') : ending = ending' := by
  cases ending with
  | printed text =>
    cases ending' with
    | printed text' =>
      have hline : (text ++ "\n").toUTF8 = (text' ++ "\n").toUTF8 := h.2.1.symm.trans h'.2.1
      rw [(String.append_left_inj "\n").1 (String.toByteArray_inj.1 hline)]
    | failed _ | overflowed => exact absurd (h.1.symm.trans h'.1) (by decide)
  | failed cause =>
    cases ending' with
    | failed cause' =>
      have hreports : #[cause] = #[cause'] := h.2.2.symm.trans h'.2.2
      cases hreports
      rfl
    | printed _ | overflowed => exact absurd (h.1.symm.trans h'.1) (by decide)
  | overflowed =>
    cases ending' with
    | overflowed => rfl
    | printed _ | failed _ => exact absurd (h.1.symm.trans h'.1) (by decide)

/-- A heap of no more words than there are offsets has offsets for the words of all images that it
takes. -/
theorem hasOffsets_of_le (h : options.heapWords ≤ UInt32.size) :
    HasOffsets surroundings options :=
  fun _ _ hlength _ => Nat.le_trans hlength h

/-- The command shows the ending that it comes to. -/
theorem tells_of_ends (hoffsets : HasOffsets surroundings options)
    (directives : List Log.Directive) (h : Ends surroundings options ending) :
    (perform none surroundings options directives).Tells ending := by
  cases h with
  | missing hcontent =>
    apply tells_of_image_eq_error
    rw [image, source_eq, hcontent]
    rfl
  | @notText bytes hcontent htext =>
    have hread : String.fromUTF8? bytes = none :=
      Option.eq_none_iff_forall_ne_some.2 fun text h => htext text (fromUTF8?_eq_some_iff.1 h)
    apply tells_of_image_eq_error
    rw [image, source_eq, hcontent]
    simp only [hread]
    rfl
  | noImage hcontent hparse =>
    apply tells_of_image_eq_error
    rw [image_of_content hcontent, hparse]
    rfl
  | tooLarge hreads hlt =>
    apply tells_of_image_eq_error
    rw [image_of_reads hreads, Image.fits_eq_error_iff.2 hlt]
    rfl
  | overflowed hreads hle hsize =>
    have hwords : ¬ Heap.Allocatable options.heapWords := fun h =>
      Nat.not_lt.2 hsize (Heap.allocatable_iff.1 h)
    rw [perform_of_reads hreads hle, Program.run_of_not_allocatable _ _ _ hwords]
    exact ⟨rfl, rfl, rfl⟩
  | notRendered hreads hle hsize hrender =>
    rw [← Heap.fill_zeroed _ (hoffsets _ hreads hle hsize)] at hrender
    exact tells_of_render_eq_error hreads hle hsize hrender
  | printed hreads hle hsize hrender =>
    rw [← Heap.fill_zeroed _ (hoffsets _ hreads hle hsize)] at hrender
    exact tells_of_render_eq_ok hreads hle hsize hrender

/-- The rules come to one ending only. -/
theorem ends_iff_tells (hoffsets : HasOffsets surroundings options) :
    Ends surroundings options ending ↔
      (perform none surroundings options directives).Tells ending := by
  constructor
  · exact tells_of_ends hoffsets directives
  · intro h
    obtain ⟨ending', hends⟩ := exists_ends surroundings options
    rw [h.unique (tells_of_ends hoffsets directives hends)]
    exact hends

/-- The command exits with 0 when it printed a text. -/
theorem code_perform_eq_zero_iff (hoffsets : HasOffsets surroundings options) :
    (perform none surroundings options directives).code = 0 ↔
      ∃ text, Ends surroundings options (.printed text) := by
  constructor
  · intro hcode
    obtain ⟨ending, hends⟩ := exists_ends surroundings options
    have htells := tells_of_ends hoffsets directives hends
    cases ending with
    | printed text => exact ⟨text, hends⟩
    | failed _ | overflowed => exact absurd (htells.1.symm.trans hcode) (by decide)
  · rintro ⟨text, hends⟩
    exact (tells_of_ends hoffsets directives hends).1

/-! ## The log -/

/-- A sequence that succeeds has a first part that does, and its second succeeds from there. -/
theorem exists_of_bind_eq_ok {α β : Type} {first : Except Fault α} {next : α → Except Fault β}
    {b : β} (h : first >>= next = .ok b) : ∃ a, first = .ok a ∧ next a = .ok b := by
  cases first with
  | error fault => cases h
  | ok a => exact ⟨a, rfl, h⟩

/-- An image that is used fits. -/
theorem length_le_of_image_eq_ok (h : image surroundings options = .ok input) :
    input.heap.length ≤ options.heapWords := by
  obtain ⟨text, -, h⟩ := exists_of_bind_eq_ok h
  obtain ⟨parsed, -, h⟩ := exists_of_bind_eq_ok h
  obtain ⟨_, hfits, h⟩ := exists_of_bind_eq_ok h
  cases h
  exact Image.fits_eq_ok_iff.1 hfits

/-- The log shows nothing that did not happen. -/
theorem mem_of_mem_shown {events : Array Event} {event : Event}
    (h : event ∈ Log.shown directives events) : event ∈ events.toList := by
  unfold Log.shown at h
  exact Array.mem_toList_iff.2 (Array.mem_filter.1 h).1

/-- The log of a run shows events of the run. -/
theorem mem_events_of_mem_log {conclusion : Conclusion} {stopped : Machine} {event : Event}
    (h : event ∈ (Outcome.ofRun directives (.ok conclusion stopped)).log) :
    event ∈ stopped.events.toList := by
  unfold Outcome.ofRun at h
  dsimp only at h
  split at h <;> exact mem_of_mem_shown h

/-- No words of an image are dropped. -/
theorem wordsDropped_not_mem_log (dropped : Fault) :
    .wordsDropped dropped ∉ (perform none surroundings options directives).log := by
  rw [perform_eq]
  cases himage : image surroundings options with
  | error fault => exact Array.not_mem_empty _
  | ok input =>
    intro hlog
    by_cases hwords : Heap.Allocatable options.heapWords
    · obtain ⟨stopped, hrun, -, -, hevents⟩ :=
        Program.run_image options.depthLimit {} hwords (length_le_of_image_eq_ok himage)
      simp only [hrun] at hlog
      have hevent := mem_events_of_mem_log hlog
      rw [hevents] at hevent
      exact Event.wordsDropped_not_mem_ofImageRun _ _ _ _ hevent
    · simp only [Program.run_of_not_allocatable _ _ _ hwords] at hlog
      have hshown : .wordsDropped dropped ∈ Log.shown directives #[] := hlog
      exact List.not_mem_nil (mem_of_mem_shown hshown)

/-- Performing makes no complaint about the arguments. -/
theorem complaint_perform :
    (perform none surroundings options directives).complaint = none := by
  rw [perform_eq]
  cases image surroundings options with
  | error fault => rfl
  | ok input =>
    dsimp only
    unfold Outcome.ofRun
    split
    · rfl
    · split <;> rfl

/-- The log directives of the options can be read, so a log variable that is not set does no
harm. -/
theorem isSome_directives? (options : Options) (h : surroundings.logVariable = none) :
    (directives? surroundings options).isSome := by
  have husual : ∀ debug : Bool, (do
      let wanted ← Log.directives? ""
      let usual ← Log.directives? (if debug then "tagword=debug" else "tagword=warn")
      return wanted ++ usual : Option (List Log.Directive)).isSome := by decide
  rw [directives?, h]
  exact husual options.debug

/-- An invocation with good arguments reads its directives and performs, or panics over them. -/
theorem invoke_eq {arguments : List String} (surroundings : Surroundings)
    (harguments : Options.ofArguments arguments = .ok options) :
    invoke none arguments surroundings =
      match directives? surroundings options with
      | none => { code := 101 }
      | some directives => perform none surroundings options directives := by
  cases hdirectives : directives? surroundings options <;>
    simp only [invoke, harguments, hdirectives]

end

/-- With options that can be read, and an offset for each word that is loaded, the command exits with
0 exactly when it comes to a text, and always shows just the ending that the rules come to: the text
and a line feed, or a report of what failed first, or an overflow. No words of the image are dropped
on the way. Only a log variable that is set can keep it from all this. -/
theorem invoke_tells {arguments : List String} {options : Options} (surroundings : Surroundings)
    (harguments : Options.ofArguments arguments = .ok options)
    (hoffsets : HasOffsets surroundings options) :
    let outcome := invoke none arguments surroundings
    match directives? surroundings options with
    | none =>
      surroundings.logVariable ≠ none ∧ outcome.code = 101 ∧ outcome.output = .empty ∧
        outcome.reports = #[]
    | some _ =>
      (outcome.code = 0 ↔ ∃ text, Ends surroundings options (.printed text)) ∧
        (∃ ending, Ends surroundings options ending) ∧
        (∀ ending, Ends surroundings options ending ↔ outcome.Tells ending) ∧
        outcome.complaint = none ∧ ∀ dropped, .wordsDropped dropped ∉ outcome.log := by
  intro outcome
  have houtcome : outcome = _ := invoke_eq surroundings harguments
  clear_value outcome
  cases hdirectives : directives? surroundings options with
  | none =>
    rw [hdirectives] at houtcome
    subst houtcome
    refine ⟨fun hunset => ?_, rfl, rfl, rfl⟩
    have hsome := isSome_directives? options hunset
    rw [hdirectives] at hsome
    cases hsome
  | some directives =>
    rw [hdirectives] at houtcome
    subst houtcome
    exact ⟨code_perform_eq_zero_iff hoffsets, exists_ends surroundings options,
      fun _ => ends_iff_tells hoffsets,
      complaint_perform, wordsDropped_not_mem_log⟩

/-- A pair on the standard input. -/
theorem invoke_tells_pair :
    let arguments := ["tagword", "--heap-words", "2"]
    let options : Options := { heapWords := 2 }
    let surroundings : Surroundings := { input := "0x1\n20 40\n".toUTF8 }
    Options.ofArguments arguments = .ok options ∧ HasOffsets surroundings options ∧
      Ends surroundings options (.printed "(10, 20)") ∧
      (invoke none arguments surroundings).Tells (.printed "(10, 20)") := by
  intro arguments options surroundings
  have harguments : Options.ofArguments arguments = .ok options := rfl
  have hreads : Reads surroundings options { result := ⟨1⟩, heap := [⟨20⟩, ⟨40⟩] } :=
    ⟨"0x1\n20 40\n", rfl, rfl⟩
  have hrender : render ⟨1⟩ (.padded 2 [⟨20⟩, ⟨40⟩]) .byHeap {} =
      .ok ⟨1⟩ { text := "(10, 20)", visits := #[⟨0, 0⟩] } := by
    cbv
  have hends : Ends surroundings options (.printed "(10, 20)") :=
    .printed hreads (by decide) (by decide) hrender
  have hoffsets : HasOffsets surroundings options := hasOffsets_of_le (by decide)
  have h := invoke_tells surroundings harguments hoffsets
  have hunset : surroundings.logVariable = none := rfl
  obtain ⟨directives, hdirectives⟩ :=
    Option.isSome_iff_exists.1 (isSome_directives? options hunset)
  rw [hdirectives] at h
  exact ⟨harguments, hoffsets, hends, (h.2.2.1 _).1 hends⟩

/-- A log variable with a directive behind a blank that cannot be read keeps the command from its
work. And where an image has more words than there are offsets, the text is not that of its result on
a heap of its words: the last word, here, has taken the place of the first. -/
theorem invoke_tells_otherwise :
    (let arguments := ["tagword", "--heap-words", "1"]
      let options : Options := { heapWords := 1 }
      let surroundings : Surroundings :=
        { input := "2".toUTF8, logVariable := some " é=debug" }
      Options.ofArguments arguments = .ok options ∧ Ends surroundings options (.printed "1") ∧
        (invoke none arguments surroundings).code = 101) ∧
    let arguments := ["tagword", "--heap-words", "4294967297"]
    let options : Options := { heapWords := UInt32.size + 1 }
    let surroundings : Surroundings := { input := (Image.zeros UInt32.size).source.toUTF8 }
    Options.ofArguments arguments = .ok options ∧
      Ends surroundings options (.printed "(0, 0)") ∧
      (invoke none arguments surroundings).Tells (.printed "(1, 0)") := by
  constructor
  · intro arguments options surroundings
    have harguments : Options.ofArguments arguments = .ok options := rfl
    have hreads : Reads surroundings options { result := ⟨2⟩, heap := [] } := ⟨"2", rfl, rfl⟩
    have hrender : render ⟨2⟩ (.padded 1 []) .byHeap {} = .ok ⟨2⟩ { text := "1" } := by cbv
    have hdirectives : directives? surroundings options = none := by decide
    refine ⟨harguments, .printed hreads (Nat.zero_le 1) (by decide) hrender, ?_⟩
    rw [invoke_eq surroundings harguments, hdirectives]
  · intro arguments options surroundings
    have harguments : Options.ofArguments arguments = .ok options := rfl
    let manuscript := Image.zeros UInt32.size
    have hreads : Reads surroundings options manuscript.image :=
      ⟨manuscript.source, rfl, Image.ofText_eq_ok_iff.2 manuscript.layout⟩
    have hlength : manuscript.image.heap.length ≤ options.heapWords :=
      Nat.le_of_eq (Image.length_zeros UInt32.size)
    have hsize : options.heapWords < 0x2000000000000000 := by decide
    have hfits : (Tree.Placement.pair 0 (.leaf ⟨0⟩) (.leaf ⟨0⟩)).Fits options.heapWords := by
      decide
    -- on a heap of the words the result stands for two zeros
    have hunfolds : (Heap.padded options.heapWords manuscript.image.heap).Unfolds ⟨1⟩
        (.pair (.int 0) (.int 0)) :=
      Tree.Placement.unfolds rfl (Image.heldBy_zeros (by decide)) hfits.2
    obtain ⟨_, draft, hrender, htext⟩ := exists_render_eq_ok hunfolds.toText_eq
    have hends := Ends.printed hreads hlength hsize hrender
    -- but on the heap that the words fill it stands for a one and a zero
    have hfilled := Image.unfolds_zeros (Nat.le_succ UInt32.size)
    obtain ⟨_, draft', hrender', htext'⟩ := exists_render_eq_ok hfilled.toText_eq
    have hunset : surroundings.logVariable = none := rfl
    obtain ⟨directives, hdirectives⟩ :=
      Option.isSome_iff_exists.1 (isSome_directives? options hunset)
    have htells : (invoke none arguments surroundings).Tells (.printed draft'.text) := by
      rw [invoke_eq surroundings harguments, hdirectives]
      exact tells_of_render_eq_ok hreads hlength hsize hrender'
    rw [htext] at hends
    rw [htext'] at htells
    exact ⟨harguments, hends, htells⟩

end Command

end TaggedValues
