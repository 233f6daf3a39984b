import TaggedValues.Machine

/-!
# Native programs

A native program is compiled code that stores words on the heap and calls back for printing. A call
prints a line to the output under the limit given by the heap, or reports why it cannot, and in
either case gives its argument back, so the program goes on. Calls print only while the heap is
active, that is while the machine runs the program: a call before that does nothing but give its
argument back.
-/

namespace TaggedValues.Native

/-- A step of a native program. -/
inductive Step where
  /-- Stores a word. -/
  | store (offset : UInt32) (word : Word)
  /-- Calls for printing. -/
  | print (word : Word)
  /-- Calls for printing and stores what the call gives back. -/
  | storePrinted (offset : UInt32) (word : Word)
  /-- Calls for printing before the machine runs the program, and saves what the call gives back.
  When its turn comes in the program, nothing happens. -/
  | printEarly (word : Word)
  /-- Stores the saved word. -/
  | storeSaved (offset : UInt32)
  /-- Returns a word and ends the program. -/
  | finish (word : Word)
deriving DecidableEq, Repr

/-- A call for printing. -/
def call (word : Word) : Work Word := do
  if (← get).active then
    match ← Work.print word .byHeap with
    | .ok _ => pure ()
    | .error fault =>
      Work.flushOutput
      Work.report fault
  return word

/-- Stores a word. -/
def store (offset : UInt32) (word : Word) : Work Unit :=
  Work.changeHeap fun heap => (heap.poke offset word, ())

/-- Makes the calls that come before the program, and gives the word saved last, which is zero if
there was no call. -/
def callEarly (saved : Word) : List Step → Work Word
  | [] => return saved
  | .printEarly word :: rest => do callEarly (← call word) rest
  | _ :: rest => callEarly saved rest

/-- Does the steps of a program up to the one that returns. A program without one returns zero. -/
def performAll (saved : Word) : List Step → Work Word
  | [] => return ⟨0⟩
  | .store offset word :: rest => do
    store offset word
    performAll saved rest
  | .print word :: rest => do
    let _ ← call word
    performAll saved rest
  | .storePrinted offset word :: rest => do
    store offset (← call word)
    performAll saved rest
  | .printEarly _ :: rest => performAll saved rest
  | .storeSaved offset :: rest => do
    store offset saved
    performAll saved rest
  | .finish word :: _ => return word

/-- Marks whether native code runs on the heap. -/
def setActive (active : Bool) : Work Unit :=
  modify fun machine => { machine with active }

/-- Runs the program, with the heap active all the while. -/
def execute (saved : Word) (steps : List Step) : Work Word := do
  setActive true
  let word ← performAll saved steps
  setActive false
  return word

end TaggedValues.Native
