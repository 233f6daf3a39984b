import TaggedValues.Render

/-!
# Printing values

A `Sink` receives bytes. It may have a bounded room, take only a portion of what it is offered and
refuse to be flushed. `print` makes the text of a value in memory first, so a value that cannot be
rendered leaves the sink untouched; then it hands over the text with a line feed, and flushes.
-/

namespace TaggedValues

/-- A receiver of bytes. -/
structure Sink where
  /-- The bytes received so far. -/
  received : ByteArray := .empty
  /-- How many more bytes fit, where there is a bound. -/
  room : Option Nat := none
  /-- How many bytes each of the next calls takes at most. -/
  portions : List Nat := []
  /-- How many bytes every call behind those takes at most, where there is a bound. -/
  portion : Option Nat := none
  /-- Whether it refuses to be flushed. -/
  refusesFlush : Bool := false
  /-- How often it was asked to flush. -/
  flushes : Nat := 0

namespace Sink

/-- The least of a number and a bound that may be missing. -/
def atMost (bound : Option Nat) (n : Nat) : Nat :=
  match bound with
  | none => n
  | some bound => min bound n

/-- How many of `offered` bytes are taken at once. -/
def taken (sink : Sink) (offered : Nat) : Nat :=
  atMost sink.room (atMost (sink.portions.head?.or sink.portion) offered)

/-- A bound takes something away, if anything. -/
theorem atMost_le (bound : Option Nat) (n : Nat) : atMost bound n ≤ n := by
  cases bound with
  | none => exact Nat.le_refl n
  | some bound => exact Nat.min_le_right bound n

/-- A sink takes no more than it is offered. -/
theorem taken_le (sink : Sink) (offered : Nat) : sink.taken offered ≤ offered :=
  Nat.le_trans (atMost_le _ _) (atMost_le _ _)

/-- Takes the `count` bytes from `start` on. -/
def take (sink : Sink) (bytes : ByteArray) (start count : Nat) : Sink :=
  { sink with
    received := sink.received ++ bytes.extract start (start + count)
    room := sink.room.map (· - count)
    portions := sink.portions.tail }

/-- Hands over the bytes from `start` on, as many at a time as the sink takes, until none is left or
it takes none. -/
def writeFrom (sink : Sink) (bytes : ByteArray) (start : Nat) : Sink × Except Transfer Unit :=
  if start < bytes.size then
    let count := sink.taken (bytes.size - start)
    if 0 < count then (sink.take bytes start count).writeFrom bytes (start + count)
    else (sink, .error .shortWrite)
  else (sink, .ok ())
termination_by bytes.size - start

/-- Hands over all bytes. -/
def writeAll (sink : Sink) (bytes : ByteArray) : Sink × Except Transfer Unit :=
  sink.writeFrom bytes 0

/-- Asks the sink to flush. -/
def flush (sink : Sink) : Sink × Except Transfer Unit :=
  ({ sink with flushes := sink.flushes + 1 },
    if sink.refusesFlush then .error .flushRefused else .ok ())

end Sink

/-- What an attempt to print leaves behind. -/
structure Printing where
  /-- The sink afterwards. -/
  sink : Sink
  /-- The pairs entered while the value was rendered. -/
  visits : Array Visit
  /-- The word printed, or why it could not be. -/
  result : Except Fault Word

/-- Prints the value of a word and a line feed into a sink. -/
def print (word : Word) (heap : Heap) (limit : DepthLimit) (sink : Sink) : Printing :=
  match render word heap limit {} with
  | .error fault draft => { sink, visits := draft.visits, result := .error fault }
  | .ok word draft =>
    match sink.writeAll (draft.text ++ "\n").toUTF8 with
    | (sink, .error cause) =>
      { sink, visits := draft.visits, result := .error (.transfer cause) }
    | (sink, .ok ()) =>
      match sink.flush with
      | (sink, .error cause) =>
        { sink, visits := draft.visits, result := .error (.transfer cause) }
      | (sink, .ok ()) => { sink, visits := draft.visits, result := .ok word }

end TaggedValues
