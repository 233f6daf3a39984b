import TaggedValues.Native

/-!
# The calls of a native program

What a native program does to the heap does not depend on what comes of its calls for printing,
since a call gives back its argument whatever happens. So the calls can be listed, each with the
heap as it is at that moment, without printing anything.
-/

namespace TaggedValues.Native

/-- The argument of a call before the program. -/
def Step.early? : Step → Option Word
  | .printEarly word => some word
  | .store .. | .print _ | .storePrinted .. | .storeSaved _ | .finish _ => none

/-- A call for printing. -/
structure Call where
  /-- The argument. -/
  word : Word
  /-- The heap at the moment of the call. -/
  heap : Heap
deriving DecidableEq, Repr

/-- What a native program does. -/
structure Trace where
  /-- Its calls for printing, in order. -/
  calls : List Call
  /-- The heap it leaves. -/
  heap : Heap
  /-- The word it returns. -/
  result : Word
deriving DecidableEq, Repr

/-- What a native program does on a heap, with the word saved by its early calls. -/
def trace (heap : Heap) (saved : Word) : List Step → Trace
  | [] => { calls := [], heap, result := ⟨0⟩ }
  | .store offset word :: rest => trace (heap.poke offset word) saved rest
  | .print word :: rest =>
    let traced := trace heap saved rest
    { traced with calls := { word, heap } :: traced.calls }
  | .storePrinted offset word :: rest =>
    let traced := trace (heap.poke offset word) saved rest
    { traced with calls := { word, heap } :: traced.calls }
  | .printEarly _ :: rest => trace heap saved rest
  | .storeSaved offset :: rest => trace (heap.poke offset saved) saved rest
  | .finish word :: _ => { calls := [], heap, result := word }

/-- The line that a call prints, if its argument can be rendered. -/
def Call.line? (call : Call) : Option String :=
  match call.word.toText call.heap with
  | .ok text => some (text ++ "\n")
  | .error _ => none

/-- The fault that a call reports, if its argument cannot be rendered. -/
def Call.fault? (call : Call) : Option Fault :=
  match call.word.toText call.heap with
  | .ok _ => none
  | .error fault => some fault

/-- What the calls of a program print. -/
def Trace.printed (traced : Trace) : String := String.join (traced.calls.filterMap Call.line?)

/-- What the calls of a program report. -/
def Trace.reported (traced : Trace) : List Fault := traced.calls.filterMap Call.fault?

end TaggedValues.Native
