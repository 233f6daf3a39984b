import TaggedValues.Options.Stop

/-!
# Reading the command line

The command line is read from left to right. At most one argument is *pending*: an option of which
the value is not checked yet, or the image. It is settled when the next known option has been read,
when the next image argument is taken, and at the end; so an argument that nobody knows is found
before a bad value in front of it. The first error ends the reading, and so do the requests for the
help text and the version.
-/

namespace TaggedValues

open Text

namespace Options

/-! ## Arguments -/

/-- The form of an argument in front of a `--`. -/
inductive Form where
  /-- Two dashes alone: all further arguments are images. -/
  | escape
  /-- Two dashes and a name, and perhaps an equals sign and a value. -/
  | long (name : String) (value : Option String)
  /-- A dash and letters. -/
  | short (letters : List Char)
  /-- Anything else, a single dash included. -/
  | plain
deriving DecidableEq, Repr

/-- The form of an argument. -/
def Form.ofArgument (argument : String) : Form :=
  match argument.toList with
  | ['-', '-'] => escape
  | '-' :: '-' :: body =>
    let name := String.ofList (body.takeWhile (· ≠ '='))
    match body.dropWhile (· ≠ '=') with
    | [] => long name none
    | _ :: value => long name (some (String.ofList value))
  | '-' :: letter :: letters => short (letter :: letters)
  | _ => plain

/-! ## Reading -/

/-- An argument that is not settled yet. -/
inductive Pending where
  /-- A setting, and its value if that has been read. -/
  | setting (setting : Setting) (value : Option String)
  /-- The image. -/
  | image (path : String)
deriving DecidableEq, Repr

/-- What has been read so far. -/
structure Progress where
  /-- The image, once it is settled. -/
  image : Option String := none
  /-- Whether the steps of the work are to be shown. -/
  debug : Bool := false
  /-- The size of the heap, once it is settled. -/
  heapWords : Option Nat := none
  /-- The limit on nesting, once it is settled. -/
  maxDepth : Option Nat := none
  /-- The argument that is not settled yet. -/
  pending : Option Pending := none
deriving DecidableEq, Repr

/-- Reading goes on with what it has, or stops. -/
abbrev Reading := Except Stop

/-- Ends the reading because of a misuse. -/
def refuse {α : Type} (misuse : Misuse) : Reading α := .error (.misuse misuse)

namespace Progress

/-- The settled value of a setting. -/
def setting (progress : Progress) : Setting → Option Nat
  | .heapWords => progress.heapWords
  | .maxDepth => progress.maxDepth

/-- Settles a setting with a number. -/
def withSetting (progress : Progress) (number : Nat) : Setting → Progress
  | .heapWords => { progress with heapWords := some number }
  | .maxDepth => { progress with maxDepth := some number }

/-- Whether the image has been taken, settled or not. -/
def HasImage (progress : Progress) : Prop :=
  progress.image.isSome ∨ ∃ path, progress.pending = some (.image path)

instance (progress : Progress) : Decidable progress.HasImage :=
  match h : progress.pending with
  | some (.image path) => isTrue (.inr ⟨path, h⟩)
  | some (.setting ..) | none => decidable_of_iff (progress.image.isSome) (by simp [HasImage, h])

/-- Settles a setting with the text of its value: it must not be settled already, and the text must
be a number. -/
def settleValue (progress : Progress) (setting : Setting) (text : String) : Reading Progress :=
  if (progress.setting setting).isSome then refuse (.repeated setting.usage)
  else
    match Numeral.read 10 maxNumber text.toList with
    | .ok number => .ok (progress.withSetting number setting)
    | .error cause => refuse (.badValue text setting.usage cause)

/-- Settles what is pending. -/
def settle (progress : Progress) : Reading Progress :=
  let settled := { progress with pending := none }
  match progress.pending with
  | none => .ok settled
  | some (.setting setting none) => refuse (.missingValue setting.usage)
  | some (.setting setting (some text)) => settled.settleValue setting text
  | some (.image path) =>
    if path.isEmpty then refuse (.missingValue imageUsage)
    else .ok { settled with image := some path }

/-- Reads a flag. -/
def readFlag (progress : Progress) (flag : Flag) : Reading Progress := do
  let progress ← progress.settle
  match flag with
  | .debug =>
    if progress.debug then refuse (.repeated ("--" ++ flag.name))
    else return { progress with debug := true }
  | .help => .error .help
  | .version => .error .version

/-- Reads a setting with the value attached to it, or leaves it pending until its value comes. -/
def readSetting (progress : Progress) (setting : Setting) (value : Option String) :
    Reading Progress := do
  let progress ← progress.settle
  match value with
  | none => return { progress with pending := some (.setting setting none) }
  | some text => progress.settleValue setting text

/-- Reads an option by its name. -/
def readLong (progress : Progress) (name : String) (value : Option String) : Reading Progress :=
  match Setting.ofName? name, Flag.ofName? name, value with
  | some setting, _, value => progress.readSetting setting value
  | none, some flag, none => progress.readFlag flag
  | none, some flag, some value => refuse (.unwantedValue value flag)
  | none, none, _ => refuse (.unknown ("--" ++ name))

/-- Reads flags by their letters. -/
def readShort (progress : Progress) : List Char → Reading Progress
  | [] => .ok progress
  | letter :: letters =>
    match Flag.ofLetter? letter with
    | none => refuse (.unknown (String.ofList ['-', letter]))
    | some flag => do
      let progress ← progress.readFlag flag
      progress.readShort letters

/-- Takes an argument as the image. There is only one. -/
def readImage (progress : Progress) (argument : String) : Reading Progress :=
  if progress.HasImage then refuse (.unknown argument)
  else do
    let progress ← progress.settle
    return { progress with pending := some (.image argument) }

/-- Takes an argument that is no option: as the value of the setting that waits for one, or else as
the image. -/
def readPlain (progress : Progress) (argument : String) : Reading Progress :=
  match progress.pending with
  | some (.setting setting none) =>
    .ok { progress with pending := some (.setting setting (some argument)) }
  | _ => progress.readImage argument

/-- Settles what is left and fills in the defaults. -/
def finish (progress : Progress) : Reading Options := do
  let progress ← progress.settle
  return {
    image := progress.image
    debug := progress.debug
    heapWords := progress.heapWords.getD Heap.defaultSize
    maxDepth := progress.maxDepth }

/-- Reads arguments behind `--`, all of them images. -/
def readEscaped (progress : Progress) : List String → Reading Options
  | [] => progress.finish
  | argument :: rest => do
    let progress ← progress.readImage argument
    progress.readEscaped rest

/-- Reads arguments in front of `--`. -/
def readAll (progress : Progress) : List String → Reading Options
  | [] => progress.finish
  | argument :: rest =>
    match Form.ofArgument argument with
    | .escape => progress.readEscaped rest
    | .long name value => do
      let progress ← progress.readLong name value
      progress.readAll rest
    | .short letters => do
      let progress ← progress.readShort letters
      progress.readAll rest
    | .plain => do
      let progress ← progress.readPlain argument
      progress.readAll rest

end Progress

/-- Reads a command line, of which the first argument is the name of the program. -/
def ofArguments (arguments : List String) : Reading Options :=
  Progress.readAll {} arguments.tail

end Options

end TaggedValues
