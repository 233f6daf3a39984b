import TaggedValues.Render

/-!
# Events

What the library reports while it works: heaps that come and go, programs that start and return,
pairs that are entered, and what went wrong on the way. An event has a level, a target that says
which part of the library it comes from, a message, and values by name.
-/

namespace TaggedValues

open Text

/-- How urgent an event is. -/
inductive Level where
  /-- Something failed. -/
  | error
  /-- Something is wrong, and the work goes on. -/
  | warn
  /-- Something worth knowing happened. -/
  | info
  /-- A step of the work, for those who look for a fault. -/
  | debug
  /-- A detail of a step. -/
  | trace
deriving DecidableEq, Repr

namespace Level

/-- The place of a level, from the most urgent on. -/
def rank : Level → Nat
  | error => 1
  | warn => 2
  | info => 3
  | debug => 4
  | trace => 5

/-- The name of a level in a log line. -/
def name : Level → String
  | error => "ERROR"
  | warn => "WARN"
  | info => "INFO"
  | debug => "DEBUG"
  | trace => "TRACE"

end Level

/-- Something that happened. -/
inductive Event where
  /-- A heap of so many words was acquired. -/
  | heapAcquired (words : Nat)
  /-- A heap of so many words was released. -/
  | heapReleased (words : Nat)
  /-- The program starts. -/
  | running
  /-- The program returned a word. -/
  | returned (word : Word)
  /-- A pair was entered while a value was rendered. -/
  | pairEntered (visit : Visit)
  /-- An image did not fit, so the words past the end of the heap are dropped. -/
  | wordsDropped (cause : Fault)
  /-- The result of a program could not be printed. -/
  | notPrinted (cause : Fault)
deriving DecidableEq, Repr

namespace Event

/-- How urgent the event is. -/
def level : Event → Level
  | heapAcquired _ | heapReleased _ | running | returned _ => .debug
  | pairEntered _ => .trace
  | wordsDropped _ | notPrinted _ => .warn

/-- The part of the library the event comes from. -/
def target : Event → String
  | heapAcquired _ | heapReleased _ => "tagword::allocator"
  | running | returned _ | notPrinted _ => "tagword::runtime"
  | pairEntered _ => "tagword::value::display"
  | wordsDropped _ => "tagword::image"

/-- What happened. -/
def message : Event → String
  | heapAcquired _ => "heap acquired"
  | heapReleased _ => "heap released"
  | running => "running program"
  | returned _ => "program returned"
  | pairEntered _ => "pair"
  | wordsDropped _ => "heap words past the end of the heap are dropped"
  | notPrinted _ => "cannot print the result"

/-- The values that belong to what happened, by name. -/
def values : Event → List (String × String)
  | heapAcquired words | heapReleased words => [("words", Numeral.decimal words)]
  | running => []
  | returned word => [("word", Numeral.decimal word.bits.toNat)]
  | pairEntered visit =>
    [("offset", Numeral.decimal visit.offset.toNat), ("depth", Numeral.decimal visit.depth)]
  | wordsDropped cause | notPrinted cause => [("err", cause.message)]

/-- The names of what the event carries: its message and its values. -/
def fields (event : Event) : List String :=
  "message" :: event.values.map Prod.fst

/-- The event as a line of a log. -/
def line (event : Event) : String :=
  event.level.name ++ " " ++ event.target ++ ": " ++ event.message ++
    String.join (event.values.map fun (name, value) => " " ++ name ++ "=" ++ value)

end Event

end TaggedValues
