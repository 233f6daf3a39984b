import TaggedValues.Command
import TaggedValues.Log.Reading

/-!
# What the log of the command is wanted for

The log variable lists directives (`Log.Directive.Listed`), and the options have one of their own
(`Options.directive`). A user who sets the variable wants its directives on top of the one of the
options (`Log.Honours`): among them the last one with the longest target counts for an event
(`Log.Directive.Foremost`), and what it enables is wanted in the log, unless its target is shorter
than the usual one; an event that none of them is meant for is left to the usual one. What can be
logged at all are the events of the work (`Command.events`).
-/

namespace TaggedValues

namespace Log

namespace Directive

/-- The log variable lists the directives. It lists none when it is not set or empty. -/
inductive Listed : List Directive → Option String → Prop where
  | unset : Listed [] none
  | empty : Listed [] (some "")
  | spelled {directives : List Directive} {text : String} :
    SpelledAll directives text.toList → Listed directives (some text)

/-- Whether the target of the directive is the beginning of that of the event. -/
def Matches (directive : Directive) (event : Event) : Prop :=
  directive.target.toList <+: event.target.toList

instance (directive : Directive) (event : Event) : Decidable (directive.Matches event) :=
  inferInstanceAs (Decidable (_ <+: _))

/-- Of the directives whose target matches that of the event, none has a longer one than this
directive, and behind it none has the same. -/
def Foremost (directives : List Directive) (event : Event) (directive : Directive) : Prop :=
  ∃ before behind, directives = before ++ directive :: behind ∧ directive.Matches event ∧
    (∀ other ∈ directives, other.Matches event →
      other.target.length ≤ directive.target.length) ∧
    ∀ other ∈ behind, other.target ≠ directive.target

end Directive

/-- Logging an event or not honours the directives that are wanted on top of the usual one. -/
structure Honours (wanted : List Directive) (usual : Directive) (event : Event) (logged : Prop) :
    Prop where
  /-- What the foremost directive enables is logged, unless its target is shorter than the usual
  one. -/
  of_foremost : ∀ directive, Directive.Foremost wanted event directive →
    usual.target.length ≤ directive.target.length → directive.Enables event.level → logged
  /-- Without a directive meant for it, the event is logged when the usual one enables it. -/
  of_unmatched : (∀ directive ∈ wanted, ¬ directive.Matches event) →
    (logged ↔ usual.Enables event.level)

end Log

/-- The usual log directive under the options. -/
def Options.directive (options : Options) : Log.Directive where
  target := "tagword"
  threshold := some (if options.debug then .debug else .warn)

namespace Command

/-- The events that work left in the record of the machine, also when it ended early. -/
def recorded : EStateM.Result CapacityOverflow Machine Conclusion → Array Event
  | .ok _ machine | .error _ machine => machine.events

/-- The events of the work that the options ask for, whether the log shows them or not. There are
none when there is no image to run. -/
def events (linked : Option (List Native.Step)) (surroundings : Surroundings)
    (options : Options) : Array Event :=
  match linked, options.image with
  | some steps, none =>
    let work : Work Conclusion := do
      let saved ← Native.callEarly ⟨0⟩ steps
      (Program.native saved steps).run options.heapWords options.depthLimit
    recorded (work {})
  | _, _ =>
    match image surroundings options with
    | .error _ => #[]
    | .ok image =>
      recorded ((Program.image image).run options.heapWords options.depthLimit {})

end Command

end TaggedValues
