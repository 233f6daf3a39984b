import TaggedValues.Options.Grammar
import TaggedValues.Proofs.Text.Numeral

/-!
# Command lines that ask for options

A command line that asks for options is read as these options, in whatever order and spelling it
names them (`Options.ofArguments_of_requests`). While it is read from left to right, its last part
may still be pending, so the invariant speaks of what the reading comes to once that is settled: it
stands for the parts read so far (`Options.Progress.StandsFor`). Reading the arguments of one more
part adds just that part, as long as nothing before it was about the same subject
(`Options.Progress.exists_next`).
-/

namespace TaggedValues

open Text

namespace Options

/-! ## Parts -/

/-- What a part of a command line is about. -/
inductive Subject where
  /-- The steps of the work in the log. -/
  | debug
  /-- A setting. -/
  | setting (which : Setting)
  /-- The image. -/
  | image
deriving DecidableEq, Repr

/-- What the part is about. -/
def Part.subject : Part → Subject
  | debug => .debug
  | setting which _ => .setting which
  | image _ => .image

/-- The number that the part gives, if any, is one that an option takes. -/
def Part.Allowed : Part → Prop
  | setting _ number => number ≤ maxNumber
  | debug | image _ => True

namespace Progress

/-- The part is settled. -/
def Holds (progress : Progress) : Part → Prop
  | .debug => progress.debug = true
  | .setting which number => progress.setting which = some number
  | .image path => progress.image = some path

/-- Nothing is settled about the subject. -/
def Lacks (progress : Progress) (subject : Subject) : Prop :=
  ∀ part, progress.Holds part → part.subject ≠ subject

/-- Settles the part. -/
def withPart (progress : Progress) : Part → Progress
  | .debug => { progress with debug := true }
  | .setting which number => progress.withSetting number which
  | .image path => { progress with image := some path }

/-- What has been read stands for the parts: once it is settled it holds these and no other. -/
def StandsFor (progress : Progress) (parts : List Part) : Prop :=
  ∃ settled, progress.settle = .ok settled ∧ ∀ part, settled.Holds part ↔ part ∈ parts

end Progress

/-! ## Arguments -/

section
variable {text : String} {number : Nat}

/-- An argument that begins with no dash is no option. -/
theorem ofArgument_of_head? (h : text.toList.head? ≠ some '-') :
    Form.ofArgument text = .plain := by
  unfold Form.ofArgument
  split
  · next heq => simp [heq] at h
  · next heq => simp [heq] at h
  · next heq => simp [heq] at h
  · rfl

/-- Nor is a numeral, as it begins with a digit or a plus sign. -/
theorem ofArgument_of_signed (h : Numeral.Signed 10 text.toList number) :
    Form.ofArgument text = .plain := by
  apply ofArgument_of_head?
  intro hminus
  obtain hplus | hdigit := h.eq_plus_or_isSome_digit? '-' (List.mem_of_head? hminus)
  · exact absurd hplus (by decide)
  · exact absurd hdigit (by decide)

/-- The name of a setting behind two dashes is a long form without a value. -/
theorem ofArgument_name (which : Setting) :
    Form.ofArgument ("--" ++ which.name) = .long which.name none := by
  cases which <;> rfl

/-- The name of a setting ends at the first equals sign, and all behind that is its value. -/
theorem ofArgument_attached (which : Setting) (text : String) :
    Form.ofArgument ("--" ++ which.name ++ "=" ++ text) = .long which.name (some text) := by
  unfold Form.ofArgument
  simp only [String.toList_append]
  cases which <;> simp [Setting.name]

end

namespace Progress

section
variable {progress settled next : Progress} {which : Setting} {subject : Subject}
  {part other : Part} {parts done : List Part} {argument name text path : String}
  {value : Option String} {arguments : List String} {number : Nat} {options : Options}
  {sized named : Bool}

/-! ## Parts that are settled -/

@[simp] theorem debug_withSetting (progress : Progress) (number : Nat) (which : Setting) :
    (progress.withSetting number which).debug = progress.debug := by
  cases which <;> rfl

@[simp] theorem image_withSetting (progress : Progress) (number : Nat) (which : Setting) :
    (progress.withSetting number which).image = progress.image := by
  cases which <;> rfl

@[simp] theorem pending_withSetting (progress : Progress) (number : Nat) (which : Setting) :
    (progress.withSetting number which).pending = progress.pending := by
  cases which <;> rfl

/-- A setting that is settled leaves the other one as it was. -/
theorem setting_withSetting (progress : Progress) (number : Nat) (which other : Setting) :
    (progress.withSetting number which).setting other =
      if other = which then some number else progress.setting other := by
  cases which <;> cases other <;> rfl

/-- A reading that lacks the flag has not seen it. -/
theorem Lacks.debug_eq_false (h : progress.Lacks .debug) : progress.debug = false :=
  Bool.eq_false_iff.2 fun hdebug => h .debug hdebug rfl

/-- A reading that lacks a setting holds no value for it. -/
theorem Lacks.setting_eq_none (h : progress.Lacks (.setting which)) :
    progress.setting which = none :=
  Option.eq_none_iff_forall_ne_some.2 fun number hnumber => h (.setting which number) hnumber rfl

/-- A reading that lacks the image holds no path. -/
theorem Lacks.image_eq_none (h : progress.Lacks .image) : progress.image = none :=
  Option.eq_none_iff_forall_ne_some.2 fun path hpath => h (.image path) hpath rfl

/-- A part is settled besides those that are, as long as none of them is about the same. -/
theorem holds_withPart (h : progress.Lacks part.subject) :
    (progress.withPart part).Holds other ↔ other = part ∨ progress.Holds other := by
  cases part with
  | debug =>
    cases other with
    | debug => simp [withPart, Holds]
    | setting which _ => cases which <;> simp [withPart, Holds, setting]
    | image _ => simp [withPart, Holds]
  | image path =>
    have hfree : progress.image = none := h.image_eq_none
    cases other with
    | debug => simp [withPart, Holds]
    | setting which _ => cases which <;> simp [withPart, Holds, setting]
    | image _ => simp [withPart, Holds, hfree, eq_comm]
  | setting which number =>
    have hfree : progress.setting which = none := h.setting_eq_none
    cases other with
    | debug => simp [withPart, Holds]
    | setting which' number' =>
      simp only [withPart, Holds, setting_withSetting]
      grind
    | image _ => simp [withPart, Holds]

/-! ## Settling -/

/-- Nothing is settled when nothing is pending. -/
theorem settle_of_pending_eq_none (h : progress.pending = none) :
    progress.settle = .ok progress := by
  cases progress
  cases h
  rfl

/-- The value that a setting was given is settled next. -/
theorem settle_given (h : progress.pending = none) :
    { progress with pending := some (.setting which (some text)) }.settle =
      progress.settleValue which text := by
  cases progress
  cases h
  rfl

/-- A numeral within the bound settles its setting. -/
theorem settleValue_of_signed (hfree : progress.setting which = none)
    (hsigned : Numeral.Signed 10 text.toList number) (hle : number ≤ maxNumber) :
    progress.settleValue which text = .ok (progress.withSetting number which) := by
  have hread : Numeral.read 10 maxNumber text.toList = .ok number :=
    (Numeral.read_eq_ok_iff (by decide) (by decide)).2 ⟨hsigned, hle⟩
  unfold settleValue
  rw [hfree, hread]
  rfl

/-- A value that can be settled gives its setting a number. -/
theorem exists_of_settleValue (h : progress.settleValue which text = .ok settled) :
    ∃ number, settled = progress.withSetting number which := by
  unfold settleValue at h
  split at h
  · cases h
  · split at h
    · cases h
      exact ⟨_, rfl⟩
    · cases h

/-- What can be settled is nothing, a setting with its value, or the image. -/
theorem settle_cases (h : progress.settle = .ok settled) :
    (progress.pending = none ∧ settled = { progress with pending := none }) ∨
      (∃ which text number, progress.pending = some (.setting which (some text)) ∧
        settled = { progress with pending := none }.withSetting number which) ∨
      ∃ path, progress.pending = some (.image path) ∧
        settled = { progress with pending := none, image := some path } := by
  unfold settle at h
  dsimp only at h
  split at h
  · next hpending =>
    cases h
    exact .inl ⟨hpending, rfl⟩
  · cases h
  · next which text hpending =>
    obtain ⟨number, rfl⟩ := exists_of_settleValue h
    exact .inr (.inl ⟨which, text, number, hpending, rfl⟩)
  · next path hpending =>
    split at h
    · cases h
    · cases h
      exact .inr (.inr ⟨path, hpending, rfl⟩)

/-- Nothing is pending once all is settled. -/
theorem pending_of_settle (h : progress.settle = .ok settled) : settled.pending = none := by
  obtain ⟨-, rfl⟩ | ⟨_, _, _, -, rfl⟩ | ⟨_, -, rfl⟩ := settle_cases h
  · rfl
  · exact pending_withSetting ..
  · rfl

/-- A setting that waits for its value cannot be settled. -/
theorem pending_ne_of_settle (h : progress.settle = .ok settled) (which : Setting) :
    progress.pending ≠ some (.setting which none) := by
  obtain ⟨hpending, -⟩ | ⟨_, _, _, hpending, -⟩ | ⟨_, hpending, -⟩ := settle_cases h <;>
    simp [hpending]

/-- An image that has been taken is there once all is settled. -/
theorem isSome_image_of_hasImage (h : progress.settle = .ok settled) (himage : progress.HasImage) :
    settled.image.isSome := by
  unfold HasImage at himage
  obtain ⟨hpending, rfl⟩ | ⟨_, _, _, hpending, rfl⟩ | ⟨_, -, rfl⟩ := settle_cases h
  · simpa [hpending] using himage
  · simpa [hpending] using himage
  · rfl

/-! ## Reading an argument -/

/-- A long form that is read hands the rest of the arguments on. -/
theorem readAll_of_long (h : Form.ofArgument argument = .long name value)
    (hread : progress.readLong name value = .ok next) (rest : List String) :
    progress.readAll (argument :: rest) = next.readAll rest := by
  rw [readAll, h]
  dsimp only
  rw [hread]
  rfl

/-- So does a row of short letters. -/
theorem readAll_of_short {letters : List Char} (h : Form.ofArgument argument = .short letters)
    (hread : progress.readShort letters = .ok next) (rest : List String) :
    progress.readAll (argument :: rest) = next.readAll rest := by
  rw [readAll, h]
  dsimp only
  rw [hread]
  rfl

/-- So does an argument that is no option. -/
theorem readAll_of_plain (h : Form.ofArgument argument = .plain)
    (hread : progress.readPlain argument = .ok next) (rest : List String) :
    progress.readAll (argument :: rest) = next.readAll rest := by
  rw [readAll, h]
  dsimp only
  rw [hread]
  rfl

/-- The flag is taken when it was not given before. -/
theorem readFlag_debug (hsettle : progress.settle = .ok settled) (hfree : settled.debug = false) :
    progress.readFlag .debug = .ok (settled.withPart .debug) := by
  rw [readFlag, hsettle]
  show (if settled.debug then _ else _) = _
  rw [hfree]
  rfl

/-- The name of a setting reads that setting. -/
theorem readLong_setting (progress : Progress) (which : Setting) (value : Option String) :
    progress.readLong which.name value = progress.readSetting which value := by
  cases which <;> rfl

/-- A setting without a value waits for the next argument. -/
theorem readSetting_none (which : Setting) (hsettle : progress.settle = .ok settled) :
    progress.readSetting which none =
      .ok { settled with pending := some (.setting which none) } := by
  rw [readSetting, hsettle]
  rfl

/-- A setting with a value takes it at once. -/
theorem readSetting_some (which : Setting) (text : String)
    (hsettle : progress.settle = .ok settled) :
    progress.readSetting which (some text) = settled.settleValue which text := by
  rw [readSetting, hsettle]
  rfl

/-- The image is taken as long as there is none. -/
theorem exists_readImage (hpath : path ≠ "") (hsettle : progress.settle = .ok settled)
    (hfree : settled.image = none) :
    ∃ next : Progress, progress.readImage path = .ok next ∧
      next.settle = .ok (settled.withPart (.image path)) := by
  have himage : ¬ progress.HasImage := fun himage => by
    simpa [hfree] using isSome_image_of_hasImage hsettle himage
  refine ⟨{ settled with pending := some (.image path) }, ?_, ?_⟩
  · rw [readImage, if_neg himage, hsettle]
    rfl
  · have hpending := pending_of_settle hsettle
    cases settled
    cases hpending
    exact if_neg (by simpa using hpath)

/-- When all can be settled no setting waits for a value, so an argument that is no option is the
image. -/
theorem readPlain_of_settle (hsettle : progress.settle = .ok settled) (argument : String) :
    progress.readPlain argument = progress.readImage argument := by
  unfold readPlain
  split
  · next which hpending => exact absurd hpending (pending_ne_of_settle hsettle which)
  · rfl

/-! ## Reading parts -/

/-- The arguments of a part are read as that part, as long as none is settled that is about the
same. -/
theorem exists_next (h : part.Spelled arguments) (hallowed : part.Allowed)
    (hsettle : progress.settle = .ok settled) (hfree : settled.Lacks part.subject) :
    ∃ next : Progress, next.settle = .ok (settled.withPart part) ∧
      ∀ rest, progress.readAll (arguments ++ rest) = next.readAll rest := by
  have hpending := pending_of_settle hsettle
  cases h with
  | long =>
    exact ⟨settled.withPart .debug, settle_of_pending_eq_none hpending,
      readAll_of_long rfl (readFlag_debug hsettle hfree.debug_eq_false)⟩
  | short =>
    have hread : progress.readShort ['d'] = .ok (settled.withPart .debug) := by
      show (do (← progress.readFlag .debug).readShort []) = _
      rw [readFlag_debug hsettle hfree.debug_eq_false]
      rfl
    exact ⟨settled.withPart .debug, settle_of_pending_eq_none hpending, readAll_of_short rfl hread⟩
  | @separate which text number hsigned =>
    -- the name leaves its setting waiting, so that the numeral cannot become the image
    let waiting := { settled with pending := some (.setting which none) }
    refine ⟨{ waiting with pending := some (.setting which (some text)) }, ?_, fun rest => ?_⟩
    · exact (settle_given hpending).trans
        (settleValue_of_signed hfree.setting_eq_none hsigned hallowed)
    · have hwaiting : progress.readLong which.name none = .ok waiting :=
        (readLong_setting ..).trans (readSetting_none which hsettle)
      rw [List.cons_append, List.singleton_append,
        readAll_of_long (ofArgument_name which) hwaiting,
        readAll_of_plain (ofArgument_of_signed hsigned) rfl]
  | @attached which text number hsigned =>
    have hread : progress.readLong which.name (some text) =
        .ok (settled.withSetting number which) := by
      rw [readLong_setting, readSetting_some which text hsettle]
      exact settleValue_of_signed hfree.setting_eq_none hsigned hallowed
    exact ⟨settled.withSetting number which,
      settle_of_pending_eq_none ((pending_withSetting ..).trans hpending),
      readAll_of_long (ofArgument_attached which text) hread⟩
  | @image path hpath hplain =>
    obtain ⟨next, hread, hnext⟩ := exists_readImage hpath hsettle hfree.image_eq_none
    have hform : Form.ofArgument path = .plain := by
      obtain rfl | hhead := hplain
      · rfl
      · exact ofArgument_of_head? hhead
    exact ⟨next, hnext, readAll_of_plain hform ((readPlain_of_settle hsettle path).trans hread)⟩

/-- What holds the parts lacks what none of them is about. -/
theorem lacks_of_holds (h : ∀ part, settled.Holds part ↔ part ∈ done)
    (hsubject : subject ∉ done.map Part.subject) : settled.Lacks subject :=
  fun part hpart heq => hsubject (heq ▸ List.mem_map_of_mem ((h part).1 hpart))

/-- One more part that was lacking is held when the next argument is settled. -/
theorem standsFor_cons (h : ∀ part, settled.Holds part ↔ part ∈ done)
    (hlacks : settled.Lacks part.subject) (hnext : next.settle = .ok (settled.withPart part)) :
    next.StandsFor (part :: done) := by
  refine ⟨_, hnext, fun other => ?_⟩
  rw [holds_withPart hlacks, h, List.mem_cons]

/-- The order of the parts makes no difference. -/
theorem StandsFor.perm {parts' : List Part} (h : progress.StandsFor parts)
    (hperm : parts.Perm parts') : progress.StandsFor parts' := by
  obtain ⟨settled, hsettle, hholds⟩ := h
  exact ⟨settled, hsettle, fun part => (hholds part).trans hperm.mem_iff⟩

/-- Before anything is read there are no parts. -/
theorem standsFor_nil : ({} : Progress).StandsFor [] := by
  refine ⟨{}, rfl, fun part => ?_⟩
  cases part with
  | debug => simp [Holds]
  | setting which _ => cases which <;> simp [Holds, setting]
  | image _ => simp [Holds]

/-- Parts about different things are read one after the other. -/
theorem StandsFor.exists_readAll (h : progress.StandsFor done)
    (hspelled : Part.SpelledAll parts arguments) (hallowed : ∀ part ∈ parts, part.Allowed)
    (hnodup : ((parts ++ done).map Part.subject).Nodup) :
    ∃ next : Progress, next.StandsFor (parts ++ done) ∧
      ∀ rest, progress.readAll (arguments ++ rest) = next.readAll rest := by
  induction hspelled generalizing progress done with
  | nil => exact ⟨progress, h, fun _ => rfl⟩
  | @cons part parts arguments arguments' hpart _ ih =>
    obtain ⟨settled, hsettle, hholds⟩ := h
    -- the part read now moves from those to come to those done
    have hperm : (parts ++ part :: done).Perm (part :: parts ++ done) := List.perm_middle
    have hnodup' := (hperm.map Part.subject).nodup_iff.2 hnodup
    rw [List.cons_append, List.map_cons, List.nodup_cons, List.map_append] at hnodup
    rw [List.forall_mem_cons] at hallowed
    have hlacks : settled.Lacks part.subject := lacks_of_holds hholds fun hmem =>
      hnodup.1 (List.mem_append_right _ hmem)
    obtain ⟨next, hnext, hread⟩ := exists_next hpart hallowed.1 hsettle hlacks
    obtain ⟨last, hlast, hread'⟩ := ih (standsFor_cons hholds hlacks hnext) hallowed.2 hnodup'
    refine ⟨last, hlast.perm hperm, fun rest => ?_⟩
    rw [List.append_assoc, hread, hread']

/-! ## The parts of options -/

/-- The flag is among the parts if it is set. -/
theorem debug_mem_parts : .debug ∈ options.parts sized named ↔ options.debug = true := by
  simp [parts]

/-- The size of the heap is among the parts if it is to be named. -/
theorem heapWords_mem_parts :
    .setting .heapWords number ∈ options.parts sized named ↔
      sized = true ∧ number = options.heapWords := by
  simp [parts]

/-- A depth limit is among the parts if it is set. -/
theorem maxDepth_mem_parts :
    .setting .maxDepth number ∈ options.parts sized named ↔ options.maxDepth = some number := by
  simp [parts]

/-- The path is among the parts if it is set and to be named. -/
theorem image_mem_parts :
    .image path ∈ options.parts sized named ↔ named = true ∧ options.image = some path := by
  simp [parts]

/-- A named path is the last of the parts. -/
theorem parts_of_image (h : options.image = some path) :
    options.parts sized true = options.parts sized false ++ [.image path] := by
  simp [parts, h]

/-- Options call for at most one part about each subject. -/
theorem nodup_subject_parts (options : Options) (sized named : Bool) :
    ((options.parts sized named).map Part.subject).Nodup := by
  have hif (wanted : Bool) (part : Part) :
      ((if wanted then [part] else []).map Part.subject).Sublist [part.subject] := by
    cases wanted <;> simp
  have hdepth : ((options.maxDepth.toList.map (Part.setting .maxDepth)).map Part.subject).Sublist
      [.setting .maxDepth] := by
    cases options.maxDepth <;> simp [Part.subject]
  have himage : ((if named then options.image.toList.map Part.image else []).map
      Part.subject).Sublist [.image] := by
    cases named <;> cases options.image <;> simp [Part.subject]
  have hparts : ((options.parts sized named).map Part.subject).Sublist
      [.debug, .setting .heapWords, .setting .maxDepth, .image] := by
    simp only [parts, List.map_append]
    exact (((hif _ _).append (hif _ _)).append hdepth).append himage
  exact hparts.nodup (by decide)

/-- Options within the bound call for numbers within the bound. -/
theorem allowed_of_mem_parts (hheap : options.heapWords ≤ maxNumber)
    (hdepth : ∀ levels ∈ options.maxDepth, levels ≤ maxNumber)
    (h : part ∈ options.parts sized named) : part.Allowed := by
  cases part with
  | debug | image _ => trivial
  | setting which number =>
    cases which with
    | heapWords =>
      obtain ⟨-, rfl⟩ := heapWords_mem_parts.1 h
      exact hheap
    | maxDepth => exact hdepth number (maxDepth_mem_parts.1 h)

/-- At the end, parts that the options call for give these options. -/
theorem finish_of_standsFor (h : progress.StandsFor (options.parts sized true))
    (hsized : sized = false → options.heapWords = Heap.defaultSize) :
    progress.finish = .ok options := by
  obtain ⟨settled, hsettle, hholds⟩ := h
  have himage : settled.image = options.image := Option.ext fun path =>
    (hholds (.image path)).trans (image_mem_parts.trans (and_iff_right rfl))
  have hdebug : settled.debug = options.debug :=
    Bool.eq_iff_iff.2 ((hholds .debug).trans debug_mem_parts)
  have hdepth : settled.maxDepth = options.maxDepth := Option.ext fun number =>
    (hholds (.setting .maxDepth number)).trans maxDepth_mem_parts
  have hheap : settled.heapWords.getD Heap.defaultSize = options.heapWords := by
    have hheap (number : Nat) : settled.heapWords = some number ↔ _ :=
      (hholds (.setting .heapWords number)).trans heapWords_mem_parts
    cases sized with
    | false =>
      have hnone : settled.heapWords = none :=
        Option.eq_none_iff_forall_ne_some.2 fun number h => by simpa using (hheap number).1 h
      rw [hnone, hsized rfl]
      rfl
    | true =>
      rw [(hheap options.heapWords).2 ⟨rfl, rfl⟩]
      rfl
  rw [finish, hsettle]
  show Except.ok (Options.mk _ _ _ _) = _
  rw [himage, hdebug, hdepth, hheap]

/-- Arguments that spell the parts of the options are read as these parts. -/
theorem exists_readAll_parts (hheap : options.heapWords ≤ maxNumber)
    (hdepth : ∀ levels ∈ options.maxDepth, levels ≤ maxNumber)
    (hperm : parts.Perm (options.parts sized named)) (hspelled : Part.SpelledAll parts arguments) :
    ∃ next : Progress, next.StandsFor (options.parts sized named) ∧
      ∀ rest, readAll {} (arguments ++ rest) = next.readAll rest := by
  have hallowed : ∀ part ∈ parts, part.Allowed := fun part hpart =>
    allowed_of_mem_parts hheap hdepth (hperm.mem_iff.1 hpart)
  have hnodup : ((parts ++ []).map Part.subject).Nodup := by
    rw [List.append_nil]
    exact (hperm.map Part.subject).nodup_iff.2 (nodup_subject_parts options sized named)
  obtain ⟨next, hnext, hread⟩ := standsFor_nil.exists_readAll hspelled hallowed hnodup
  rw [List.append_nil] at hnext
  exact ⟨next, hnext.perm hperm, hread⟩

/-- The argument behind two dashes is the image, whatever it looks like. -/
theorem readAll_dashes (h : progress.StandsFor (options.parts sized false))
    (himage : options.image = some path) (hpath : path ≠ "")
    (hsized : sized = false → options.heapWords = Heap.defaultSize) :
    progress.readAll ["--", path] = .ok options := by
  obtain ⟨settled, hsettle, hholds⟩ := h
  have hlacks : settled.Lacks (Part.image path).subject :=
    lacks_of_holds hholds (by simp [parts, Part.subject])
  obtain ⟨last, hread, hlast⟩ := exists_readImage hpath hsettle hlacks.image_eq_none
  have hperm : (.image path :: options.parts sized false).Perm (options.parts sized true) := by
    rw [parts_of_image himage]
    exact (List.perm_append_singleton _ _).symm
  calc
    progress.readAll ["--", path] = (progress.readImage path).bind finish := rfl
    _ = last.finish := by
      rw [hread]
      rfl
    _ = .ok options := finish_of_standsFor ((standsFor_cons hholds hlacks hlast).perm hperm) hsized

end

end Progress

/-- Whatever the name of the program, a command line that asks for options is read as just these
options, as long as their numbers are such as an option takes. -/
theorem ofArguments_of_requests {options : Options} {arguments : List String} (program : String)
    (hheap : options.heapWords ≤ maxNumber)
    (hdepth : ∀ levels ∈ options.maxDepth, levels ≤ maxNumber)
    (h : options.Requests arguments) : ofArguments (program :: arguments) = .ok options := by
  cases h with
  | @named sized parts arguments hsized hperm hspelled =>
    obtain ⟨next, hnext, hread⟩ := Progress.exists_readAll_parts hheap hdepth hperm hspelled
    calc
      ofArguments (program :: arguments) = Progress.readAll {} (arguments ++ []) := by
        rw [List.append_nil]
        rfl
      _ = next.finish := hread []
      _ = .ok options := Progress.finish_of_standsFor hnext hsized
  | @behindDashes sized parts arguments path hsized hperm hspelled himage hpath =>
    obtain ⟨next, hnext, hread⟩ := Progress.exists_readAll_parts hheap hdepth hperm hspelled
    calc
      ofArguments (program :: (arguments ++ ["--", path])) = next.readAll ["--", path] := hread _
      _ = .ok options := Progress.readAll_dashes hnext himage hpath hsized

/-- The largest heap, no nesting, and an image that looks like a request for help. -/
theorem ofArguments_of_requests_dashed :
    let options : Options :=
      { image := some "--help", debug := true, heapWords := maxNumber, maxDepth := some 0 }
    let arguments :=
      ["--max-depth=+00", "-d", "--heap-words", "018446744073709551615", "--", "--help"]
    (options.heapWords ≤ maxNumber ∧ ∀ levels ∈ options.maxDepth, levels ≤ maxNumber) ∧
      options.Requests arguments ∧ ofArguments ("tagword" :: arguments) = .ok options := by
  intro options arguments
  have hheap : options.heapWords ≤ maxNumber := Nat.le_refl maxNumber
  have hdepth : ∀ levels ∈ options.maxDepth, levels ≤ maxNumber := by
    rintro levels ⟨⟩
    exact Nat.zero_le maxNumber
  have hsigned {text : List Char} {number : Nat}
      (h : Numeral.read 10 maxNumber text = .ok number) : Numeral.Signed 10 text number :=
    ((Numeral.read_eq_ok_iff (by decide) (by decide)).1 h).1
  have hlevels : Part.Spelled (.setting .maxDepth 0) ["--max-depth=+00"] :=
    @Part.Spelled.attached .maxDepth "+00" 0 (hsigned rfl)
  have hwords : Part.Spelled (.setting .heapWords maxNumber)
      ["--heap-words", "018446744073709551615"] :=
    @Part.Spelled.separate .heapWords "018446744073709551615" maxNumber (hsigned rfl)
  have hspelled : Part.SpelledAll [.setting .maxDepth 0, .debug, .setting .heapWords maxNumber]
      ["--max-depth=+00", "-d", "--heap-words", "018446744073709551615"] :=
    .cons hlevels (.cons .short (.cons hwords .nil))
  have hperm : List.Perm [.setting .maxDepth 0, .debug, .setting .heapWords maxNumber]
      (options.parts true false) := by decide
  have hsized : true = false → options.heapWords = Heap.defaultSize := Bool.noConfusion
  have hrequests : options.Requests arguments :=
    .behindDashes hsized hperm hspelled rfl (by decide)
  exact ⟨⟨hheap, hdepth⟩, hrequests,
    ofArguments_of_requests "tagword" hheap hdepth hrequests⟩

end Options

end TaggedValues
