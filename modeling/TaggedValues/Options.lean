import TaggedValues.Render

/-!
# Options

What a command line can ask for: the options themselves, the settings that take a number, the flags
that take nothing, and the names and letters by which arguments call them.
-/

namespace TaggedValues

/-- What the command line asks for. -/
structure Options where
  /-- The file that holds the image, where one is given. -/
  image : Option String := none
  /-- Whether the log shows the steps of the work. -/
  debug : Bool := false
  /-- The size of the heap. -/
  heapWords : Nat := Heap.defaultSize
  /-- The number of pairs that may enclose each other, where it is given. -/
  maxDepth : Option Nat := none
deriving DecidableEq, Repr

namespace Options

/-- The limit on nesting that the options ask for. -/
def depthLimit (options : Options) : DepthLimit :=
  match options.maxDepth with
  | none => .byHeap
  | some levels => .fixed levels

/-- The log directive that belongs to the options. -/
def logDirective (options : Options) : String :=
  if options.debug then "tagword=debug" else "tagword=warn"

/-- The largest number that an option takes. -/
def maxNumber : Nat := 0xFFFFFFFFFFFFFFFF

/-- An option that takes a number. -/
inductive Setting where
  /-- The size of the heap. -/
  | heapWords
  /-- The number of pairs that may enclose each other. -/
  | maxDepth
deriving DecidableEq, Repr

/-- The name of a setting behind its two dashes. -/
def Setting.name : Setting → String
  | heapWords => "heap-words"
  | maxDepth => "max-depth"

/-- How messages speak of a setting. -/
def Setting.usage : Setting → String
  | heapWords => "--heap-words <HEAP_WORDS>"
  | maxDepth => "--max-depth <MAX_DEPTH>"

/-- An option that takes no value. -/
inductive Flag where
  /-- Shows the steps of the work in the log. -/
  | debug
  /-- Asks for the help text. -/
  | help
  /-- Asks for the version. -/
  | version
deriving DecidableEq, Repr

/-- The name of a flag behind its two dashes. -/
def Flag.name : Flag → String
  | debug => "debug"
  | help => "help"
  | version => "version"

/-- The letter of a flag behind a single dash. -/
def Flag.letter : Flag → Char
  | debug => 'd'
  | help => 'h'
  | version => 'V'

/-- How messages speak of the image. -/
def imageUsage : String := "[IMAGE]"

/-- The setting with a name. -/
def Setting.ofName? (name : String) : Option Setting :=
  [heapWords, maxDepth].find? (·.name == name)

/-- The flag with a name. -/
def Flag.ofName? (name : String) : Option Flag :=
  [debug, help, version].find? (·.name == name)

/-- The flag with a letter. -/
def Flag.ofLetter? (letter : Char) : Option Flag :=
  [debug, help, version].find? (·.letter == letter)

end Options

end TaggedValues
