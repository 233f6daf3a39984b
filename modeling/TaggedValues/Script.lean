import TaggedValues.Machine

/-!
# Scripts

A script is a list of steps on the heap of a machine, with a register for the word that was made
last. Every step gives an answer.
-/

namespace TaggedValues.Script

/-- A word given by a script: one written out, or the one in the register. -/
inductive Operand where
  /-- The word itself. -/
  | word (word : Word)
  /-- The word that was made last. -/
  | last
deriving DecidableEq, Repr

/-- The word that an operand stands for while the register holds `last`. -/
def Operand.value (last : Word) : Operand → Word
  | word w => w
  | .last => last

/-- Where a chain of pairs holds its previous pair. -/
inductive Side where
  /-- In the first element, and the index in the second. -/
  | first
  /-- In the second element, and the index in the first. -/
  | second
  /-- In both elements. -/
  | both
deriving DecidableEq, Repr

/-- The elements of the pair with the given index in a chain. -/
def Side.elements (side : Side) (previous : Word) (index : Nat) : Word × Word :=
  match side with
  | first => (previous, .ofInt (Int32.ofNat index))
  | second => (.ofInt (Int32.ofNat index), previous)
  | both => (previous, previous)

/-- A step of a script. -/
inductive Step where
  /-- Reads a word. -/
  | read (offset : UInt32)
  /-- Writes a word. -/
  | write (offset : UInt32) (value : Operand)
  /-- Writes a word as native code does, if the offset lies inside the heap. -/
  | poke (offset : UInt32) (value : Operand)
  /-- Puts a pair on the heap. -/
  | putPair (offset : UInt32) (first second : Operand)
  /-- Puts `count` pairs on the heap, 8 words apart, each holding the one before it. -/
  | chain (start : UInt32) (count : Nat) (side : Side) (seed : Operand)
  /-- Asks for the size of the heap. -/
  | size
  /-- Asks whether the heap is empty. -/
  | isEmpty
  /-- Lists all words. -/
  | words
  /-- Lists the words between two offsets. -/
  | slice (start stop : Nat)
  /-- Asks what the word at an offset stands for. -/
  | kind (offset : UInt32)
  /-- Renders a word into a draft. -/
  | render (value : Operand) (limit : DepthLimit) (room : Option Nat)
  /-- Renders a word under the limit given by the heap. -/
  | text (value : Operand)
  /-- Prints a word to a sink of its own. -/
  | print (value : Operand) (limit : DepthLimit) (sink : Sink)
  /-- Reads an image and loads it. -/
  | load (source : String)
  /-- Puts a fresh heap in place of the one in use. -/
  | replace (count : Nat)

/-- What was written to a draft under a limit, and how that ended. -/
structure Rendering where
  /-- The number of pairs that may enclose each other. -/
  levels : Nat
  /-- What was written. -/
  text : String
  /-- The word rendered, or why it could not be. -/
  result : Except Fault Word

/-- The answer of a step. -/
inductive Answer where
  /-- A word, where there is one. -/
  | word (word : Option Word)
  /-- A yes or no. -/
  | flag (value : Bool)
  /-- A number of words. -/
  | size (words : Nat)
  /-- A list of words, where there is one. -/
  | words (words : Option (Array Word))
  /-- What a word stands for, where there is one. -/
  | kind (kind : Option Word.Kind)
  /-- The outcome of rendering into a draft. -/
  | rendering (rendering : Rendering)
  /-- The text of a word. -/
  | text (result : Except Fault String)
  /-- The outcome of printing. -/
  | printing (sink : Sink) (result : Except Fault Word)
  /-- The result of an image. -/
  | loaded (result : Except Fault Word)

/-- Renders a word into a fresh draft with the given room. -/
def rendering (word : Word) (heap : Heap) (limit : DepthLimit) (room : Option Nat) :
    Rendering × Array Visit :=
  let levels := limit.levels heap.size
  match TaggedValues.render word heap limit { room } with
  | .ok word draft => ({ levels, text := draft.text, result := .ok word }, draft.visits)
  | .error fault draft => ({ levels, text := draft.text, result := .error fault }, draft.visits)

/-- Puts the pairs of a chain from `index` on, `count` of them, and gives the last one, or `none` as
soon as one is refused. -/
def chain (heap : Heap) (start : UInt32) (side : Side) (previous : Word) (index count : Nat) :
    Heap × Option Word :=
  match count with
  | 0 => (heap, some previous)
  | count + 1 =>
    let (first, second) := side.elements previous index
    match heap.putPair (start + 8 * UInt32.ofNat index) first second with
    | (heap, none) => (heap, none)
    | (heap, some pair) => chain heap start side pair (index + 1) count

/-- An answer that makes a word: the register takes it, if there is one. -/
def making (word : Option Word) (last : Word) : Answer × Word :=
  (.word word, word.getD last)

/-- Renders a word on the heap in use. -/
def renderHere (word : Word) (limit : DepthLimit) (room : Option Nat) : Work Rendering := do
  let (rendering, visits) ← Work.readHeap fun heap => Script.rendering word heap limit room
  Work.noteVisits visits
  return rendering

/-- Does a step while the register holds `last`, and gives the answer and the register. -/
def Step.perform (last : Word) : Step → Work (Answer × Word)
  | read offset => return (.word (← Work.readHeap (·.get? offset)), last)
  | write offset value =>
    return (.flag (← Work.changeHeap (·.write offset (value.value last))), last)
  | poke offset value => do
    let inside ← Work.changeHeap fun heap =>
      if offset.toNat < heap.size then (heap.poke offset (value.value last), true)
      else (heap, false)
    return (.flag inside, last)
  | putPair offset first second => do
    let pair ← Work.changeHeap (·.putPair offset (first.value last) (second.value last))
    return making pair last
  | chain start count side seed => do
    let pair ← Work.changeHeap (Script.chain · start side (seed.value last) 0 count)
    return making pair last
  | size => return (.size (← Work.readHeap Heap.size), last)
  | isEmpty => return (.flag (← Work.readHeap (·.size == 0)), last)
  | words => return (.words (some (← Work.readHeap Heap.words)), last)
  | slice start stop => return (.words (← Work.readHeap (·.slice? start stop)), last)
  | kind offset =>
    return (.kind (← Work.readHeap fun heap => (heap.get? offset).map Word.kind), last)
  | render value limit room =>
    return (.rendering (← renderHere (value.value last) limit room), last)
  | text value => do
    let rendering ← renderHere (value.value last) .byHeap none
    return (.text (rendering.result.map fun _ => rendering.text), last)
  | print value limit sink => do
    let printing ← Work.readHeap fun heap => TaggedValues.print (value.value last) heap limit sink
    Work.noteVisits printing.visits
    return (.printing printing.sink printing.result, last)
  | load source =>
    match Image.ofText source with
    | .error fault => return (.loaded (.error fault), last)
    | .ok image => do
      let word ← Work.load image
      return (.loaded (.ok word), word)
  | replace count => do
    Work.replaceHeap count
    return (.size count, last)

/-- Does the steps in order while the register holds `last`, and gives their answers behind the ones
collected so far, and the register. -/
def performAll (last : Word) (answers : Array Answer) : List Step → Work (Array Answer × Word)
  | [] => return (answers, last)
  | step :: rest => do
    let (answer, last) ← step.perform last
    performAll last (answers.push answer) rest

/-- Does the steps of a script on the heap in use, with a register of zero. -/
def execute (steps : List Step) : Work (Array Answer × Word) :=
  performAll ⟨0⟩ #[] steps

/-- Does the steps of a script on a heap of its own. -/
def session (words : Nat) (steps : List Step) : Work (Array Answer) := do
  Work.acquire words
  let (answers, _) ← execute steps
  Work.release
  return answers

end TaggedValues.Script
