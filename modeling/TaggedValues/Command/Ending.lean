import TaggedValues.Command

/-!
# How the command ends

What comes of an image does not depend on the log. `Command.Ends` has one rule for each way in which
the work can end, with all that has to hold before: the bytes are there, they are text, the text is
an image, the image fits, a block of memory can hold the heap, and the result can be rendered on a
heap of the words of the image. What the command shows of an ending is its exit code, what it writes
to the standard output, and the faults that it reports (`Command.Outcome.Tells`).
-/

namespace TaggedValues.Command

/-- What comes of an image. -/
inductive Ending where
  /-- The text of its result was printed. -/
  | printed (text : String)
  /-- Something was wrong with it. -/
  | failed (cause : Fault)
  /-- No block of memory could hold its heap. -/
  | overflowed
deriving DecidableEq, Repr

/-- The bytes that the options name: those of a file, or else the standard input. -/
def content? (surroundings : Surroundings) (options : Options) : Option ByteArray :=
  options.image.elim (some surroundings.input) surroundings.file?

/-- The bytes that the options name are the UTF-8 of a text that stands for the image. -/
def Reads (surroundings : Surroundings) (options : Options) (image : Image) : Prop :=
  ∃ text : String,
    content? surroundings options = some text.toUTF8 ∧ Image.ofText text = .ok image

/-- There is an offset for each word of an image that is loaded. -/
def HasOffsets (surroundings : Surroundings) (options : Options) : Prop :=
  ∀ image, Reads surroundings options image → image.heap.length ≤ options.heapWords →
    options.heapWords < 0x2000000000000000 → image.heap.length ≤ UInt32.size

/-- The command comes to the ending. The premises of the rules exclude each other: each rule but the
last says what fails first. -/
inductive Ends (surroundings : Surroundings) (options : Options) : Ending → Prop where
  | missing : content? surroundings options = none →
    Ends surroundings options (.failed (.transfer .missingFile))
  | notText {bytes : ByteArray} : content? surroundings options = some bytes →
    (∀ text : String, bytes ≠ text.toUTF8) →
    Ends surroundings options (.failed (.transfer .notText))
  | noImage {text : String} {cause : Fault} :
    content? surroundings options = some text.toUTF8 → Image.ofText text = .error cause →
    Ends surroundings options (.failed cause)
  | tooLarge {image : Image} : Reads surroundings options image →
    options.heapWords < image.heap.length →
    Ends surroundings options
      (.failed (.imageTooLarge image.heap.length options.heapWords))
  | overflowed {image : Image} : Reads surroundings options image →
    image.heap.length ≤ options.heapWords → 0x2000000000000000 ≤ options.heapWords →
    Ends surroundings options .overflowed
  | notRendered {image : Image} {cause : Fault} {draft : Draft} :
    Reads surroundings options image → image.heap.length ≤ options.heapWords →
    options.heapWords < 0x2000000000000000 →
    render image.result (.padded options.heapWords image.heap) options.depthLimit {} =
      .error cause draft →
    Ends surroundings options (.failed cause)
  | printed {image : Image} {word : Word} {draft : Draft} :
    Reads surroundings options image → image.heap.length ≤ options.heapWords →
    options.heapWords < 0x2000000000000000 →
    render image.result (.padded options.heapWords image.heap) options.depthLimit {} =
      .ok word draft →
    Ends surroundings options (.printed draft.text)

/-- The outcome is what the command shows of the ending: the text and a line feed on the standard
output, or nothing there and a report of the fault, or nothing at all. -/
def Outcome.Tells (outcome : Outcome) : Ending → Prop
  | .printed text =>
    outcome.code = 0 ∧ outcome.output = (text ++ "\n").toUTF8 ∧ outcome.reports = #[]
  | .failed cause => outcome.code = 1 ∧ outcome.output = .empty ∧ outcome.reports = #[cause]
  | .overflowed => outcome.code = 101 ∧ outcome.output = .empty ∧ outcome.reports = #[]

end TaggedValues.Command
