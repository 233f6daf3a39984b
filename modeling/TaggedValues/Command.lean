import TaggedValues.Log.Reading
import TaggedValues.Options.Stop
import TaggedValues.Options.Reading
import TaggedValues.Run

/-!
# The command

`Command.invoke` is the whole command as a function: from the arguments, the standard input, the
files and the log variable it computes what the command writes and how it ends. The stages come in a
fixed order, and the first that fails decides: the options are read, then the log directives, then
the image as text, then as words; the words must fit into the heap; the heap must be allocatable;
the result must be printable.
-/

namespace TaggedValues.Command

/-- What the command finds around it. -/
structure Surroundings where
  /-- The standard input. -/
  input : ByteArray := .empty
  /-- The files by name. -/
  file? : String → Option ByteArray := fun _ => none
  /-- The directives of the user's log variable, where it is set. -/
  logVariable : Option String := none

/-- What the command writes and how it ends. -/
structure Outcome where
  /-- The exit code. -/
  code : Nat
  /-- What is written to the standard output. -/
  output : ByteArray := .empty
  /-- The faults reported to the user, in order. -/
  reports : Array Fault := #[]
  /-- The events shown in the log, in order. -/
  log : Array Event := #[]
  /-- What is said about the use of the command. -/
  complaint : Option String := none

/-- The image that the options name, as text. -/
def source (surroundings : Surroundings) (options : Options) : Except Fault String :=
  let content :=
    match options.image with
    | none => some surroundings.input
    | some path => surroundings.file? path
  match content with
  | none => .error (.transfer .missingFile)
  | some bytes =>
    match String.fromUTF8? bytes with
    | none => .error (.transfer .notText)
    | some text => .ok text

/-- The image that the options name. It fits into the heap. -/
def image (surroundings : Surroundings) (options : Options) : Except Fault Image := do
  let text ← source surroundings options
  let image ← Image.ofText text
  image.fits options.heapWords
  return image

/-- The log directives in force: those of the user, and behind them the one of the options. Gives
`none` where the reading of the user's directives fails for good. -/
def directives? (surroundings : Surroundings) (options : Options) :
    Option (List Log.Directive) := do
  let wanted ← Log.directives? (surroundings.logVariable.getD "")
  let usual ← Log.directives? options.logDirective
  return wanted ++ usual

/-- The outcome of a run. -/
def Outcome.ofRun (directives : List Log.Directive) :
    EStateM.Result CapacityOverflow Machine Conclusion → Outcome
  | .error _ machine =>
    { code := 101
      output := machine.output.received
      reports := machine.reports
      log := Log.shown directives machine.events }
  | .ok conclusion machine =>
    let written : Outcome :=
      { code := 0
        output := machine.output.received
        reports := machine.reports
        log := Log.shown directives machine.events }
    match conclusion.result with
    | .ok _ => written
    | .error fault => { written with code := 1, reports := machine.reports.push fault }

/-- The outcome when the reading of the options stops. -/
def Outcome.ofStop (arguments : List String) (stop : Options.Stop) : Outcome :=
  let text := stop.text arguments
  match stop with
  | .misuse _ => { code := stop.exitCode, complaint := some text }
  | .help | .version => { code := stop.exitCode, output := text.toUTF8 }

/-- Runs the program that the options ask for, with a log: the program linked into the command, if
there is one and no image is named, and else the image. -/
def perform (linked : Option (List Native.Step)) (surroundings : Surroundings) (options : Options)
    (directives : List Log.Directive) : Outcome :=
  match linked, options.image with
  | some steps, none =>
    let work : Work Conclusion := do
      let saved ← Native.callEarly ⟨0⟩ steps
      (Program.native saved steps).run options.heapWords options.depthLimit
    .ofRun directives (work {})
  | _, _ =>
    match image surroundings options with
    | .error fault => { code := 1, reports := #[fault] }
    | .ok image =>
      .ofRun directives ((Program.image image).run options.heapWords options.depthLimit {})

/-- The command, with the program linked into it, if any. The first argument is the name by which
the command was called. Where the reading of the log directives fails for good, nothing else is
done. -/
def invoke (linked : Option (List Native.Step)) (arguments : List String)
    (surroundings : Surroundings) : Outcome :=
  match Options.ofArguments arguments with
  | .error stop => .ofStop arguments stop
  | .ok options =>
    match directives? surroundings options with
    | none => { code := 101 }
    | some directives => perform linked surroundings options directives

end TaggedValues.Command
