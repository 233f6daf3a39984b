import TaggedValues.Event
import TaggedValues.Image
import TaggedValues.Print

/-!
# The machine

A `Machine` is what programs run on: the heap in use, the output, and the record of what happened.
Work on a machine (`Work`) can end early in one way only: when a heap is asked for that no block of
memory could hold. A value that cannot be printed is an ordinary result.
-/

namespace TaggedValues

/-- A heap was asked for that no block of memory could hold. -/
structure CapacityOverflow where
  /-- The size asked for. -/
  words : Nat
deriving DecidableEq, Repr

/-- The wording of the overflow. -/
def CapacityOverflow.message (_ : CapacityOverflow) : String := "capacity overflow"

/-- The state that programs work on. -/
structure Machine where
  /-- The heap in use, empty while there is none. -/
  heap : Heap := .zeroed 0
  /-- Whether native code runs on the heap at present. -/
  active : Bool := false
  /-- The output that results go to. -/
  output : Sink := {}
  /-- What happened so far. -/
  events : Array Event := #[]
  /-- The faults reported to the user so far. -/
  reports : Array Fault := #[]

/-- Work on a machine. When it ends early, the machine stays as it was then. -/
abbrev Work := EStateM CapacityOverflow Machine

namespace Work

/-- Adds an event to the record. -/
def note (event : Event) : Work Unit :=
  modify fun machine => { machine with events := machine.events.push event }

/-- Reports a fault to the user. -/
def report (fault : Fault) : Work Unit :=
  modify fun machine => { machine with reports := machine.reports.push fault }

/-- Ends early unless a heap of so many words can be held. -/
def checkAllocatable (words : Nat) : Work Unit :=
  unless Heap.Allocatable words do throw { words }

/-- Looks at the heap in use. -/
def readHeap {α : Type} (look : Heap → α) : Work α :=
  modifyGet fun machine => (look machine.heap, machine)

/-- Changes the heap in use and answers. -/
def changeHeap {α : Type} (change : Heap → Heap × α) : Work α :=
  modifyGet fun machine =>
    match change machine.heap with
    | (heap, answer) => (answer, { machine with heap })

/-- Puts a heap of zeros in place of the one in use. -/
def installHeap (words : Nat) : Work Unit :=
  modify fun machine => { machine with heap := .zeroed words }

/-- Acquires a heap of zeros. -/
def acquire (words : Nat) : Work Unit := do
  checkAllocatable words
  note (.heapAcquired words)
  installHeap words

/-- Releases the heap in use. -/
def release : Work Unit := do
  note (.heapReleased (← readHeap Heap.size))
  installHeap 0

/-- Acquires a heap of zeros and releases the one that was in use. That one is released too when the
work ends here because no block of memory could hold the new one. -/
def replaceHeap (words : Nat) : Work Unit := do
  unless Heap.Allocatable words do release
  checkAllocatable words
  note (.heapAcquired words)
  note (.heapReleased (← readHeap Heap.size))
  installHeap words

/-- Adds the pairs entered to the record. -/
def noteVisits (visits : Array Visit) : Work Unit :=
  modify fun machine => { machine with events := machine.events ++ visits.map .pairEntered }

/-- Prints a word to the output. -/
def print (word : Word) (limit : DepthLimit) : Work (Except Fault Word) := do
  let printing ← modifyGet fun machine =>
    let printing := TaggedValues.print word machine.heap limit machine.output
    (printing, { machine with output := printing.sink })
  noteVisits printing.visits
  return printing.result

/-- Asks the output to flush, whatever comes of it. -/
def flushOutput : Work Unit :=
  modify fun machine => { machine with output := machine.output.flush.1 }

/-- Fills the heap with the words of an image, as far as it reaches, and gives the image's result.
When words are dropped, a warning comes first. -/
def load (image : Image) : Work Word := do
  if let .error cause := image.fits (← readHeap Heap.size) then note (.wordsDropped cause)
  changeHeap fun heap => (heap.fill image.heap, ())
  return image.result

end Work

end TaggedValues
