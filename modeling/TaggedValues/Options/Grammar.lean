import TaggedValues.Options.Reading

/-!
# The grammar of command lines

A command line asks for options by its parts (`Options.Part`), each spelled in one of a few ways
(`Options.Part.Spelled`). `Options.Requests` says that a command line asks for given options: it has
one part for each of them, in any order, and the size of the heap may be left out if it is the
default. The image may also come last, behind two dashes, and then its name may look like an option.
-/

namespace TaggedValues

open Text

namespace Options

/-- A part of a command line. -/
inductive Part where
  /-- Asks for the steps of the work in the log. -/
  | debug
  /-- Gives a setting. -/
  | setting (setting : Setting) (number : Nat)
  /-- Names the image. -/
  | image (path : String)
deriving DecidableEq, Repr

/-- The arguments spell the part. -/
inductive Part.Spelled : Part → List String → Prop where
  | long : Spelled .debug ["--debug"]
  | short : Spelled .debug ["-d"]
  | separate {setting : Setting} {text : String} {number : Nat} :
    Numeral.Signed 10 text.toList number →
    Spelled (.setting setting number) ["--" ++ setting.name, text]
  | attached {setting : Setting} {text : String} {number : Nat} :
    Numeral.Signed 10 text.toList number →
    Spelled (.setting setting number) ["--" ++ setting.name ++ "=" ++ text]
  | image {path : String} :
    path ≠ "" → path = "-" ∨ path.toList.head? ≠ some '-' → Spelled (.image path) [path]

/-- The arguments spell the parts one after the other. -/
inductive Part.SpelledAll : List Part → List String → Prop where
  | nil : SpelledAll [] []
  | cons {part : Part} {parts : List Part} {arguments rest : List String} :
    part.Spelled arguments → SpelledAll parts rest → SpelledAll (part :: parts) (arguments ++ rest)

/-- The parts that the options call for, with the size of the heap if it is `sized`, and with the
image if it is `named`. -/
def parts (options : Options) (sized named : Bool) : List Part :=
  (if options.debug then [.debug] else []) ++
    (if sized then [.setting .heapWords options.heapWords] else []) ++
    options.maxDepth.toList.map (.setting .maxDepth) ++
    (if named then options.image.toList.map .image else [])

/-- The arguments, without the name of the program, ask for the options. -/
inductive Requests (options : Options) : List String → Prop where
  | named {sized : Bool} {parts : List Part} {arguments : List String} :
    (sized = false → options.heapWords = Heap.defaultSize) →
    parts.Perm (options.parts sized true) → Part.SpelledAll parts arguments →
    Requests options arguments
  | behindDashes {sized : Bool} {parts : List Part} {arguments : List String} {path : String} :
    (sized = false → options.heapWords = Heap.defaultSize) →
    parts.Perm (options.parts sized false) → Part.SpelledAll parts arguments →
    options.image = some path → path ≠ "" → Requests options (arguments ++ ["--", path])

end Options

end TaggedValues
