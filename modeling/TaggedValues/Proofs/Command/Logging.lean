import TaggedValues.Command.Logging
import TaggedValues.Proofs.Command
import TaggedValues.Proofs.Log.Reading

/-!
# What the command logs

The directive of the options stands behind those of the log variable. So it decides on an event
unless one of these has a longer target (`Log.shows_append_of_foremost`), and also replaces a
directive of the user for the very same target. That is the only way in which the log variable is
not honoured (`Log.honours_append_iff`, `Command.invoke_log_honours_iff`).
-/

namespace TaggedValues

namespace Log

open Directive

section
variable {wanted directives : List Directive} {usual directive other : Directive} {event : Event}

/-! ## Directives without fields -/

/-- A directive without a field concerns the events that its target matches. -/
theorem Directive.concerns_iff (h : directive.field = none) :
    directive.Concerns event ↔ directive.Matches event := by
  simp [Concerns, Matches, h]

/-- A directive without a field gives way to those with a target at least as long. -/
theorem Directive.givesWayTo_iff (h : directive.field = none) (h' : other.field = none) :
    directive.GivesWayTo other ↔ directive.target.length ≤ other.target.length := by
  simp [GivesWayTo, h, h']
  omega

/-- Targets of the same length that match one event are the same. -/
theorem Directive.Matches.target_eq (h : directive.Matches event) (h' : other.Matches event)
    (hlength : directive.target.length = other.target.length) :
    directive.target = other.target := by
  have hlength : directive.target.toList.length = other.target.toList.length := by
    rwa [String.length_toList, String.length_toList]
  have hfront := List.prefix_of_prefix_length_le h h' (Nat.le_of_eq hlength)
  exact String.toList_inj.1 (hfront.eq_of_length hlength)

/-- An event is shown when the directive that decides on it enables it. -/
theorem shows_iff_of_decides (h : Decides directives event directive) :
    Shows directives event ↔ directive.Enables event.level := by
  rw [Shows, deciding_eq_some_iff.2 h]
  simp

/-! ## A directive behind the others -/

/-- The foremost directive is one that matches. -/
theorem Directive.Foremost.matches (h : Foremost wanted event directive) :
    directive.Matches event := by
  obtain ⟨_, _, _, hmatches, _, _⟩ := h
  exact hmatches

/-- No directive that matches the event has a longer target than the foremost. -/
theorem Directive.Foremost.length_le (h : Foremost wanted event directive) (hother : other ∈ wanted)
    (hmatches : other.Matches event) : other.target.length ≤ directive.target.length := by
  obtain ⟨_, _, _, _, hlongest, _⟩ := h
  exact hlongest other hother hmatches

/-- The foremost directive decides if its target is longer than that of the directive behind. -/
theorem decides_of_foremost (hfields : ∀ other ∈ wanted, other.field = none)
    (husual : usual.field = none) (h : Foremost wanted event directive)
    (hlonger : usual.target.length < directive.target.length) :
    Decides (wanted ++ [usual]) event directive := by
  have hmatches := h.matches
  have hlongest {other : Directive} (hother : other ∈ wanted) (hconcerns : other.Concerns event) :
      other.Matches event ∧ other.target.length ≤ directive.target.length := by
    have hmatches := (concerns_iff (hfields other hother)).1 hconcerns
    exact ⟨hmatches, h.length_le hother hmatches⟩
  obtain ⟨before, behind, rfl, _, _, hlast⟩ := h
  have hfield : directive.field = none := hfields directive (by simp)
  refine ⟨before, behind ++ [usual], by simp, (concerns_iff hfield).2 hmatches,
    fun other hother hconcerns => ?_, fun other hother hconcerns hgives => ?_⟩
  · have hmem : other ∈ before ++ directive :: behind := List.mem_append_left _ hother
    exact (givesWayTo_iff (hfields other hmem) hfield).2 (hlongest hmem hconcerns).2
  · obtain hother | hother := List.mem_append.1 hother
    · -- one behind it is no longer, and with the same length it would have the same target
      have hmem : other ∈ before ++ directive :: behind :=
        List.mem_append_right _ (List.mem_cons_of_mem _ hother)
      obtain ⟨hmatches', hle⟩ := hlongest hmem hconcerns
      have hge := (givesWayTo_iff hfield (hfields other hmem)).1 hgives
      exact hlast other hother (hmatches'.target_eq hmatches (Nat.le_antisymm hle hge))
    · cases List.mem_singleton.1 hother
      exact Nat.not_lt.2 ((givesWayTo_iff hfield husual).1 hgives) hlonger

/-- The directive behind the others decides if none of them that matches the event has a longer
target. -/
theorem decides_behind (hfields : ∀ other ∈ wanted, other.field = none)
    (husual : usual.field = none) (hmatches : usual.Matches event)
    (hle : ∀ other ∈ wanted, other.Matches event → other.target.length ≤ usual.target.length) :
    Decides (wanted ++ [usual]) event usual := by
  refine ⟨wanted, [], rfl, (concerns_iff husual).2 hmatches, fun other hother hconcerns => ?_,
    by simp⟩
  have hfield := hfields other hother
  exact (givesWayTo_iff hfield husual).2 (hle other hother ((concerns_iff hfield).1 hconcerns))

/-- Behind directives that are wanted, the usual one leaves an event to the foremost of them if that
has a longer target, and decides itself otherwise. -/
theorem shows_append_of_foremost (hfields : ∀ other ∈ wanted, other.field = none)
    (husual : usual.field = none) (hmatches : usual.Matches event)
    (h : Foremost wanted event directive) :
    Shows (wanted ++ [usual]) event ↔
      (if usual.target.length < directive.target.length then directive else usual).Enables
        event.level := by
  split
  · next hlonger => exact shows_iff_of_decides (decides_of_foremost hfields husual h hlonger)
  · next hle =>
    exact shows_iff_of_decides (decides_behind hfields husual hmatches fun other hother hmatch =>
      Nat.le_trans (h.length_le hother hmatch) (Nat.le_of_not_lt hle))

/-- It decides as well if none of them matches the event. -/
theorem shows_append_of_unmatched (hfields : ∀ other ∈ wanted, other.field = none)
    (husual : usual.field = none) (hmatches : usual.Matches event)
    (h : ∀ directive ∈ wanted, ¬ directive.Matches event) :
    Shows (wanted ++ [usual]) event ↔ usual.Enables event.level :=
  shows_iff_of_decides (decides_behind hfields husual hmatches fun other hother hmatch =>
    absurd hmatch (h other hother))

/-- Showing an event by the directives wanted and the usual one behind them honours the wanted ones,
except where the foremost has the same target as the usual one and enables more. -/
theorem honours_append_iff (hfields : ∀ other ∈ wanted, other.field = none)
    (husual : usual.field = none) (hmatches : usual.Matches event) :
    Honours wanted usual event (Shows (wanted ++ [usual]) event) ↔
      ∀ directive, Foremost wanted event directive → directive.target = usual.target →
        directive.Enables event.level → usual.Enables event.level := by
  constructor
  · intro h directive hforemost htarget henables
    have hshown := h.of_foremost directive hforemost (Nat.le_of_eq (htarget ▸ rfl)) henables
    rw [shows_append_of_foremost hfields husual hmatches hforemost, htarget,
      if_neg (Nat.lt_irrefl _)] at hshown
    exact hshown
  · refine fun h => ⟨fun directive hforemost hle henables => ?_,
      shows_append_of_unmatched hfields husual hmatches⟩
    rw [shows_append_of_foremost hfields husual hmatches hforemost]
    split
    · exact henables
    · next hge =>
      have hlength := Nat.le_antisymm (Nat.le_of_not_lt hge) hle
      have htarget := hforemost.matches.target_eq hmatches hlength
      exact h directive hforemost htarget henables

/-! ## The log variable -/

/-- What the log variable lists is read from it. -/
theorem Directive.Listed.directives?_eq {value : Option String} (h : Listed wanted value) :
    directives? (value.getD "") = some wanted := by
  cases h with
  | unset | empty => decide
  | spelled hspelled => exact hspelled.readAll?_eq

/-- What the log variable lists asks for no fields. -/
theorem Directive.Listed.field_eq_none {value : Option String} (h : Listed wanted value) :
    ∀ directive ∈ wanted, directive.field = none := by
  cases h with
  | unset | empty => exact List.forall_mem_nil _
  | spelled hspelled => exact hspelled.field_eq_none

end

end Log

namespace Command

section
variable {linked : Option (List Native.Step)} {surroundings : Surroundings} {options : Options}
  {wanted : List Log.Directive}

/-! ## The events of a run -/

/-- What a run logs is what its record has to show, however it ends. -/
theorem log_ofRun (directives : List Log.Directive)
    (result : EStateM.Result CapacityOverflow Machine Conclusion) :
    (Outcome.ofRun directives result).log = Log.shown directives (recorded result) := by
  cases result with
  | error _ _ => rfl
  | ok conclusion _ =>
    unfold Outcome.ofRun
    dsimp only
    split <;> rfl

/-- The events of a command are those of the run of its image, if it reads one. -/
theorem events_eq (surroundings : Surroundings) (options : Options) :
    events none surroundings options =
      match image surroundings options with
      | .error _ => #[]
      | .ok image =>
        recorded ((Program.image image).run options.heapWords options.depthLimit {}) :=
  rfl

/-- An image that fits into the heap, and whose result can be rendered, leaves the steps of its run
and the pairs of its result. -/
theorem toList_events_of_reads {input : Image} {word : Word} {draft : Draft}
    (h : Reads surroundings options input) (hlength : input.heap.length ≤ options.heapWords)
    (hwords : Heap.Allocatable options.heapWords)
    (hrender : render input.result ((Heap.zeroed options.heapWords).fill input.heap)
      options.depthLimit {} = .ok word draft) :
    (events none surroundings options).toList =
      [.heapAcquired options.heapWords, .running, .returned input.result] ++
        draft.visits.toList.map .pairEntered ++ [.heapReleased options.heapWords] := by
  have himage : image surroundings options = .ok input := by
    rw [image_of_reads h, Image.fits_eq_ok_iff.2 hlength]
    rfl
  have hvisits := (print_of_render_eq_ok hrender rfl {}).2.1
  have hresult := (print_of_reliable Sink.reliable_default hrender).2
  obtain ⟨stopped, hrun, -, -, hrecord⟩ :=
    Program.run_image options.depthLimit {} hwords hlength
  rw [Event.ofImageRun, hvisits, hresult] at hrecord
  rw [events_eq, himage]
  dsimp only
  rw [hrun, recorded, hrecord]
  simp [Event.warnings]

/-- What happens when a number is printed, whatever is wanted in the log. -/
theorem events_number (logVariable : Option String) :
    events none { input := "2".toUTF8, logVariable } { heapWords := 1 } =
      #[.heapAcquired 1, .running, .returned ⟨2⟩, .heapReleased 1] := by
  have hreads : Reads { input := "2".toUTF8, logVariable } { heapWords := 1 }
      { result := ⟨2⟩, heap := [] } :=
    ⟨"2", rfl, rfl⟩
  have hrender : render ⟨2⟩ ((Heap.zeroed 1).fill []) .byHeap {} = .ok ⟨2⟩ { text := "1" } := by
    cbv
  exact Array.toList_inj.1 (toList_events_of_reads hreads (Nat.zero_le 1) (by decide) hrender)

/-- The log shows events of the work, those that the directives show. -/
theorem log_perform (linked : Option (List Native.Step)) (surroundings : Surroundings)
    (options : Options) (directives : List Log.Directive) :
    (perform linked surroundings options directives).log =
      Log.shown directives (events linked surroundings options) := by
  -- the program linked in is left alone when an image is named, so this serves two cases
  have himage : (perform none surroundings options directives).log =
      Log.shown directives (events none surroundings options) := by
    rw [perform_eq, events_eq]
    cases image surroundings options with
    | error _ => rfl
    | ok _ => exact log_ofRun ..
  cases linked with
  | none => exact himage
  | some steps =>
    cases hpath : options.image with
    | none =>
      simp only [perform, events, hpath]
      exact log_ofRun ..
    | some _ =>
      simp only [perform, events, hpath] at himage ⊢
      exact himage

/-! ## The directives in force -/

/-- The directive of the options stands behind those that the log variable lists. -/
theorem directives?_of_listed (h : Log.Directive.Listed wanted surroundings.logVariable) :
    directives? surroundings options = some (wanted ++ [options.directive]) := by
  have husual : Log.directives? options.logDirective = some [options.directive] := by
    have hboth : ∀ debug : Bool,
        Log.directives? (if debug then "tagword=debug" else "tagword=warn") =
          some [{ target := "tagword", threshold := some (if debug then .debug else .warn) }] := by
      decide
    exact hboth options.debug
  rw [directives?, h.directives?_eq, husual]
  rfl

/-- The usual directive is meant for all events, as every part of the library has a target that
begins with its name. -/
theorem matches_directive (options : Options) (event : Event) :
    options.directive.Matches event := by
  have htarget : options.directive.target.toList = "tagword".toList := rfl
  unfold Log.Directive.Matches
  rw [htarget]
  cases event <;> simp only [Event.target] <;> decide

/-- The log of a run shows its events by the directives listed and that of the options. -/
theorem log_invoke {arguments : List String} (linked : Option (List Native.Step))
    (harguments : Options.ofArguments arguments = .ok options)
    (hlisted : Log.Directive.Listed wanted surroundings.logVariable) :
    (invoke linked arguments surroundings).log =
      Log.shown (wanted ++ [options.directive]) (events linked surroundings options) := by
  have hdirectives : directives? surroundings options = some (wanted ++ [options.directive]) :=
    directives?_of_listed hlisted
  rw [invoke, harguments]
  dsimp only
  rw [hdirectives]
  exact log_perform ..

end

/-- Of the events of a run, whatever was run, those are logged that the foremost of the directives
listed enables, if its target is longer than the usual one, and otherwise those that the usual one
enables. So the directives are honoured on an event, except where the foremost has just the usual
target and enables what the usual one does not. -/
theorem invoke_log_honours_iff {linked : Option (List Native.Step)} {arguments : List String}
    {options : Options} {wanted : List Log.Directive} (surroundings : Surroundings)
    (harguments : Options.ofArguments arguments = .ok options)
    (hlisted : Log.Directive.Listed wanted surroundings.logVariable) :
    ∃ logged : Event → Bool,
      (invoke linked arguments surroundings).log =
        (events linked surroundings options).filter logged ∧
      ∀ event,
        (∀ directive, Log.Directive.Foremost wanted event directive →
          (logged event ↔
            (if options.directive.target.length < directive.target.length then directive
              else options.directive).Enables event.level)) ∧
        ((∀ directive ∈ wanted, ¬ directive.Matches event) →
          (logged event ↔ options.directive.Enables event.level)) ∧
        (Log.Honours wanted options.directive event (logged event) ↔
          ∀ directive, Log.Directive.Foremost wanted event directive →
            directive.target = options.directive.target → directive.Enables event.level →
            options.directive.Enables event.level) := by
  refine ⟨(Log.Shows (wanted ++ [options.directive]) ·), log_invoke linked harguments hlisted,
    fun event => ?_⟩
  have hfields := hlisted.field_eq_none
  have hmatches := matches_directive options event
  simp only [decide_eq_true_eq]
  exact ⟨fun directive => Log.shows_append_of_foremost hfields rfl hmatches,
    Log.shows_append_of_unmatched hfields rfl hmatches,
    Log.honours_append_iff hfields rfl hmatches⟩

/-- A directive for a part of the library shows the steps of the work that come from there, and one
with a shorter target than the usual one shows nothing. -/
theorem invoke_log_honours_runtime :
    let arguments := ["tagword", "--heap-words", "1"]
    let options : Options := { heapWords := 1 }
    let surroundings : Surroundings :=
      { input := "2".toUTF8, logVariable := some "tagword::runtime=debug,tag=5" }
    let wanted : List Log.Directive :=
      [{ target := "tagword::runtime", threshold := some .debug },
        { target := "tag", threshold := some .trace }]
    Options.ofArguments arguments = .ok options ∧
      Log.Directive.Listed wanted surroundings.logVariable ∧
      (invoke none arguments surroundings).log = #[.running, .returned ⟨2⟩] := by
  intro arguments options surroundings wanted
  have harguments : Options.ofArguments arguments = .ok options := rfl
  have hlisted : Log.Directive.Listed wanted surroundings.logVariable := by
    have htext : "tagword::runtime=debug,tag=5".toList =
        ('t' :: "agword::runtime".toList ++ '=' :: "debug".toList) ++
          ',' :: ('t' :: "ag".toList ++ '=' :: "5".toList) := rfl
    refine .spelled ?_
    rw [htext]
    exact .cons (.equal rfl rfl (by simp) rfl) (.single (.equal rfl rfl (by simp) rfl))
  have hevents : events none surroundings options = _ := events_number _
  obtain ⟨logged, hlog, h⟩ :=
    @invoke_log_honours_iff none arguments options wanted surroundings harguments hlisted
  have hrunning : logged .running :=
    ((h .running).1 { target := "tagword::runtime", threshold := some .debug }
      ⟨[], _, rfl, by decide, by decide, by decide⟩).2 (by decide)
  have hreturned : logged (.returned ⟨2⟩) :=
    ((h (.returned ⟨2⟩)).1 { target := "tagword::runtime", threshold := some .debug }
      ⟨[], _, rfl, by decide, by decide, by decide⟩).2 (by decide)
  have hacquired : ¬ logged (.heapAcquired 1) :=
    mt ((h (.heapAcquired 1)).1 { target := "tag", threshold := some .trace }
      ⟨[_], [], rfl, by decide, by decide, List.forall_mem_nil _⟩).1 (by decide)
  have hreleased : ¬ logged (.heapReleased 1) :=
    mt ((h (.heapReleased 1)).1 { target := "tag", threshold := some .trace }
      ⟨[_], [], rfl, by decide, by decide, List.forall_mem_nil _⟩).1 (by decide)
  refine ⟨harguments, hlisted, ?_⟩
  rw [hlog, hevents]
  simp [hacquired, hrunning, hreturned, hreleased]

/-- The directive of the options replaces the one of the user for the same target, which enables a
step of the work. -/
theorem log_variable_overruled :
    let arguments := ["tagword", "--heap-words", "1"]
    let options : Options := { heapWords := 1 }
    let surroundings : Surroundings :=
      { input := "2".toUTF8, logVariable := some "tagword=debug" }
    let wanted : List Log.Directive := [{ target := "tagword", threshold := some .debug }]
    Options.ofArguments arguments = .ok options ∧
      Log.Directive.Listed wanted surroundings.logVariable ∧
      .running ∈ events none surroundings options ∧
      ¬ Log.Honours wanted options.directive .running
        (.running ∈ (invoke none arguments surroundings).log) := by
  intro arguments options surroundings wanted
  have harguments : Options.ofArguments arguments = .ok options := rfl
  have hlisted : Log.Directive.Listed wanted surroundings.logVariable := by
    have htext : "tagword=debug".toList = 't' :: "agword".toList ++ '=' :: "debug".toList := rfl
    refine .spelled ?_
    rw [htext]
    exact .single (.equal rfl rfl (by simp) rfl)
  have hevents : events none surroundings options = _ := events_number _
  have hlog : (invoke none arguments surroundings).log = #[] := by
    rw [log_invoke none harguments hlisted, hevents]
    decide
  refine ⟨harguments, hlisted, by simp [hevents], fun honours => ?_⟩
  have hforemost : Log.Directive.Foremost wanted .running
      { target := "tagword", threshold := some .debug } :=
    ⟨[], [], rfl, by decide, by decide, List.forall_mem_nil _⟩
  have hlogged := honours.of_foremost _ hforemost (by decide) (by decide)
  rw [hlog] at hlogged
  exact Array.not_mem_empty _ hlogged

end Command

end TaggedValues
