import TaggedValues.Options
import TaggedValues.Text.Numeral
import TaggedValues.Text.Terminal

/-!
# Where the reading of the command line stops

What can be wrong with a command line, and its wording. The reading also stops where the help text
or the version is asked for, which the user then gets to see.
-/

namespace TaggedValues

open Text

namespace Options

/-- What is wrong with a command line. -/
inductive Misuse where
  /-- Nobody knows the argument, or it is one too many. -/
  | unknown (argument : String)
  /-- A value is missing. -/
  | missingValue (usage : String)
  /-- The value is no number of the allowed range. -/
  | badValue (value usage : String) (cause : Numeral.Fault)
  /-- A flag was given a value. -/
  | unwantedValue (value : String) (flag : Flag)
  /-- An option was given twice. -/
  | repeated (usage : String)
deriving DecidableEq, Repr

/-- The wording of a misuse. Of what the user wrote it repeats what a terminal shows. -/
def Misuse.message : Misuse → String
  | unknown argument => "error: unexpected argument '" ++ visible argument ++ "' found"
  | missingValue usage => "error: a value is required for '" ++ usage ++ "' but none was supplied"
  | badValue value usage cause =>
    "error: invalid value '" ++ visible value ++ "' for '" ++ usage ++ "': " ++ cause.message
  | unwantedValue value flag =>
    "error: unexpected value '" ++ visible value ++ "' for '--" ++ flag.name ++
      "' found; no more were expected"
  | repeated usage => "error: the argument '" ++ usage ++ "' cannot be used multiple times"

/-- The first line of the wording of a misuse. An argument may hold line feeds itself. -/
def Misuse.firstLine (misuse : Misuse) : String :=
  String.ofList (misuse.message.toList.takeWhile (· ≠ '\n'))

/-- Why the reading ended before the end of the command line. -/
inductive Stop where
  /-- Something is wrong. -/
  | misuse (misuse : Misuse)
  /-- The help text was asked for. -/
  | help
  /-- The version was asked for. -/
  | version
deriving DecidableEq, Repr

/-! ## What the command says about itself -/

/-- The name by which the help text calls the program: the last component of its path. A path that
ends in no name, such as one that ends in `..`, gives `tagword`. -/
def programName (arguments : List String) : String :=
  let components := ((arguments.headD "").toList.splitOn '/').filter fun component =>
    component ≠ [] ∧ component ≠ ['.']
  match components.getLast? with
  | none | some ['.', '.'] => "tagword"
  | some name => String.ofList name

/-- The help text, for a program of the given name. -/
def helpText (program : String) : String :=
  "Runtime support for tagged-word compiled programs: heap provider and value printer\n" ++
  "\n" ++
  "Usage: " ++ visible program ++ " [OPTIONS] [IMAGE]\n" ++
  "\n" ++
  "Arguments:\n" ++
  "  [IMAGE]  Word image to run instead of the linked program, stdin when missing\n" ++
  "\n" ++
  "Options:\n" ++
  "  -d, --debug                    Logs heap and printer activity to stderr\n" ++
  "      --heap-words <HEAP_WORDS>  Size of the program heap, in words [default: 100000]\n" ++
  "      --max-depth <MAX_DEPTH>    Deepest pair nesting printed before giving up, derived from " ++
    "the heap size by default\n" ++
  "  -h, --help                     Print help\n" ++
  "  -V, --version                  Print version\n"

/-- The version text. -/
def versionText : String := "tagword 0.1.0\n"

/-- The text shown to the user when the reading stops. -/
def Stop.text (arguments : List String) : Stop → String
  | .misuse cause => cause.firstLine
  | .help => helpText (programName arguments)
  | .version => versionText

/-- The exit code when the reading stops: requests for a text succeed. -/
def Stop.exitCode : Stop → Nat
  | .misuse _ => 2
  | .help | .version => 0

end Options

end TaggedValues
