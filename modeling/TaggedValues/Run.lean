import TaggedValues.Native
import TaggedValues.Script

/-!
# Running programs

`Program.run` acquires a heap of zeros, lets the program work on it, prints the word it returns
against the heap as the program left it, and releases that heap, whatever came of the printing. The
record of the machine shows these steps in this order, and one warning just before the release when
the result could not be printed.

A heap that takes the place of another one is acquired while that is still in use, and then the
other is released, so the events of heaps come in a fixed order (`Event.turnover`).
-/

namespace TaggedValues

/-- What can be run on a heap. -/
inductive Program where
  /-- An image, which fills the heap and returns its result. -/
  | image (image : Image)
  /-- A script and the word it returns. -/
  | script (steps : List Script.Step) (result : Script.Operand)
  /-- A native program and the word saved by its early calls. -/
  | native (saved : Word) (steps : List Native.Step)

/-- What a program gives back. -/
structure Returned where
  /-- The word it returns. -/
  word : Word
  /-- The answers of its steps, if it is a script. -/
  answers : Array Script.Answer := #[]

/-- Lets a program work on the heap in use. -/
def Program.execute : Program → Work Returned
  | image source => return { word := ← Work.load source }
  | script steps result => do
    let (answers, last) ← Script.execute steps
    return { word := result.value last, answers }
  | native saved steps => return { word := ← Native.execute saved steps }

/-- What came of a run. -/
structure Conclusion where
  /-- The word printed, or why it could not be. -/
  result : Except Fault Word
  /-- The answers of the program's steps, if it is a script. -/
  answers : Array Script.Answer := #[]

/-- Runs a program on a fresh heap of `words` words and prints its result to the output. -/
def Program.run (program : Program) (words : Nat) (limit : DepthLimit) : Work Conclusion := do
  Work.acquire words
  Work.note .running
  let returned ← program.execute
  Work.note (.returned returned.word)
  let result ← Work.print returned.word limit
  if let .error cause := result then Work.note (.notPrinted cause)
  Work.release
  return { result, answers := returned.answers }

/-! ## The record of a run -/

namespace Event

/-- Whether the event tells of a heap that comes or goes. -/
def isOfHeap : Event → Bool
  | heapAcquired _ | heapReleased _ => true
  | running | returned _ | pairEntered _ | wordsDropped _ | notPrinted _ => false

/-- The events of heaps of the given sizes, each of which takes the place of the one before it, and
the first that of a heap of `size` words: a heap is acquired, and the one in use is released. -/
def turnover (size : Nat) : List Nat → List Event
  | [] => []
  | next :: rest => heapAcquired next :: heapReleased size :: turnover next rest

/-- The warning about the outcome of printing, if that is a fault. -/
def warnings : Except Fault Word → List Event
  | .ok _ => []
  | .error cause => [notPrinted cause]

/-- The warning about an image that is loaded, if it does not fit into the heap. -/
def drops : Except Fault Unit → List Event
  | .ok _ => []
  | .error cause => [wordsDropped cause]

end Event

/-- The machine on which the program of a run begins: its heap has `words` words, all zero. -/
def Machine.started (machine : Machine) (words : Nat) : Machine :=
  { machine with
    heap := .zeroed words
    events := machine.events ++ #[.heapAcquired words, .running] }

end TaggedValues
