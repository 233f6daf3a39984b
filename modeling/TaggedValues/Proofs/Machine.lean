import TaggedValues.Run

/-!
# Work on a machine

What the steps of a run do to a machine (`Work.acquire_eq`, `Work.release_eq`, `Work.print_eq`,
`Work.load_eq`), and what the work of all programs has in common: it adds to the record and takes
nothing from it, and the only events of heaps it adds are those of heaps that take each other's
place (`Work.Orderly`). When such work ends early, the heap in use was released. Orderly work in
sequence is orderly (`Work.Orderly.bind`).
-/

namespace TaggedValues

namespace Event

/-- The last of two lists of heaps is that of the second, or of the first if the second is empty. -/
theorem getLastD_append (sizes sizes' : List Nat) (size : Nat) :
    (sizes ++ sizes').getLastD size = sizes'.getLastD (sizes.getLastD size) := by
  induction sizes generalizing size with
  | nil => rfl
  | cons next rest ih => rw [List.cons_append, List.getLastD_cons, List.getLastD_cons, ih]

/-- Heaps take each other's place in two rows as in one: the second row begins with the last heap of
the first. -/
theorem turnover_append (size : Nat) (sizes sizes' : List Nat) :
    turnover size (sizes ++ sizes') =
      turnover size sizes ++ turnover (sizes.getLastD size) sizes' := by
  induction sizes generalizing size with
  | nil => rfl
  | cons next rest ih =>
    rw [List.cons_append, turnover, turnover, ih, List.getLastD_cons]
    rfl

/-- Pairs that were entered are no heaps. -/
theorem filter_isOfHeap_visits (visits : List Visit) :
    (visits.map pairEntered).filter isOfHeap = [] := by
  simp [List.filter_eq_nil_iff, isOfHeap]

/-- Warnings about a result are no events of heaps. -/
theorem filter_isOfHeap_warnings (result : Except Fault Word) :
    (warnings result).filter isOfHeap = [] := by
  cases result <;> rfl

/-- Nor are warnings about an image. -/
theorem filter_isOfHeap_drops (fits : Except Fault Unit) : (drops fits).filter isOfHeap = [] := by
  cases fits <;> rfl

end Event

/-! ## From one machine to the next -/

namespace Machine

/-- The record of the second machine is that of the first with the given events behind it, and the
events of heaps among these are those of heaps of the given sizes that took each other's place. -/
structure Continues (machine machine' : Machine) (events : List Event) (sizes : List Nat) :
    Prop where
  /-- The record goes on with the events. -/
  record : machine'.events.toList = machine.events.toList ++ events
  /-- Heaps took each other's place. -/
  heaps : events.filter Event.isOfHeap = Event.turnover machine.heap.size sizes
  /-- The last of the heaps is in use. -/
  inUse : machine'.heap.size = sizes.getLastD machine.heap.size

/-- The record of the second machine is that of the first with the given events behind it, and the
last of the heaps that took each other's place was released. -/
structure Stops (machine machine' : Machine) (events : List Event) (sizes : List Nat) :
    Prop where
  /-- The record goes on with the events. -/
  record : machine'.events.toList = machine.events.toList ++ events
  /-- Heaps took each other's place, and the last one was released. -/
  heaps : events.filter Event.isOfHeap = Event.turnover machine.heap.size sizes ++
    [.heapReleased (sizes.getLastD machine.heap.size)]

section
variable {machine machine' machine'' : Machine} {events events' : List Event}
  {sizes sizes' : List Nat}

/-- Without events and heaps a machine goes on to itself. -/
theorem Continues.refl (machine : Machine) : machine.Continues machine [] [] :=
  ⟨(List.append_nil _).symm, rfl, rfl⟩

/-- The events and the heaps of one stretch of work are followed by those of the next. -/
theorem Continues.trans (h : machine.Continues machine' events sizes)
    (h' : machine'.Continues machine'' events' sizes') :
    machine.Continues machine'' (events ++ events') (sizes ++ sizes') where
  record := by rw [h'.record, h.record, List.append_assoc]
  heaps := by rw [List.filter_append, h.heaps, h'.heaps, h.inUse, Event.turnover_append]
  inUse := by rw [h'.inUse, h.inUse, Event.getLastD_append]

/-- Work that went on before it ended early ends early as a whole, with its last heap released. -/
theorem Continues.stops (h : machine.Continues machine' events sizes)
    (h' : machine'.Stops machine'' events' sizes') :
    machine.Stops machine'' (events ++ events') (sizes ++ sizes') where
  record := by rw [h'.record, h.record, List.append_assoc]
  heaps := by
    rw [List.filter_append, h.heaps, h'.heaps, h.inUse, Event.turnover_append,
      Event.getLastD_append, List.append_assoc]

/-- Events that are not of heaps go to the record while the same heap, or one of the same size,
stays in use. -/
theorem Continues.of_size (hrecord : machine'.events.toList = machine.events.toList ++ events)
    (hheaps : events.filter Event.isOfHeap = []) (hsize : machine'.heap.size = machine.heap.size) :
    machine.Continues machine' events [] :=
  ⟨hrecord, hheaps, hsize⟩

end

end Machine

namespace Work

/-! ## Steps of a run -/

section
variable {α β : Type} {work : Work α} {next : α → Work β} {machine machine' : Machine} {a : α}
  {words : Nat}

/-- Work that succeeds hands its machine on. -/
theorem bind_of_ok (h : work machine = .ok a machine') :
    (work >>= next) machine = next a machine' := by
  simp only [bind, EStateM.bind, h]

/-- Work that ends early ends a sequence. -/
theorem bind_of_error {overflow : CapacityOverflow} (h : work machine = .error overflow machine') :
    (work >>= next) machine = .error overflow machine' := by
  simp only [bind, EStateM.bind, h]

/-- A look at the machine changes nothing. -/
theorem get_eq (machine : Machine) : (get : Work Machine) machine = .ok machine machine :=
  rfl

/-- A look at the heap changes nothing. -/
theorem readHeap_eq (look : Heap → α) (machine : Machine) :
    readHeap look machine = .ok (look machine.heap) machine :=
  rfl

/-- A noted event goes to the end of the record, and nothing else changes. -/
theorem note_eq (event : Event) (machine : Machine) :
    note event machine = .ok () { machine with events := machine.events.push event } :=
  rfl

/-- The check of a number of words that can be allocated changes nothing. -/
theorem checkAllocatable_of_allocatable (h : Heap.Allocatable words) (machine : Machine) :
    checkAllocatable words machine = .ok () machine := by
  rw [checkAllocatable, if_pos h]
  rfl

/-- The check of any other number overflows and changes nothing either. -/
theorem checkAllocatable_of_not (h : ¬ Heap.Allocatable words) (machine : Machine) :
    checkAllocatable words machine = .error { words } machine := by
  rw [checkAllocatable, if_neg h]
  rfl

/-- An acquired heap holds zeros only, and its acquisition is recorded. -/
theorem acquire_eq (h : Heap.Allocatable words) (machine : Machine) :
    acquire words machine =
      .ok () { machine with
        heap := .zeroed words
        events := machine.events.push (.heapAcquired words) } := by
  rw [acquire, bind_of_ok (checkAllocatable_of_allocatable h machine)]
  rfl

/-- When a heap cannot be allocated, the machine keeps what it had. -/
theorem acquire_of_not (h : ¬ Heap.Allocatable words) (machine : Machine) :
    acquire words machine = .error { words } machine := by
  rw [acquire, bind_of_error (checkAllocatable_of_not h machine)]

/-- A released heap is gone, and its release is recorded with its size. -/
theorem release_eq (machine : Machine) :
    release machine =
      .ok () { machine with
        heap := .zeroed 0
        events := machine.events.push (.heapReleased machine.heap.size) } :=
  rfl

/-- A heap that takes another's place is acquired before the other is released. -/
theorem replaceHeap_eq (h : Heap.Allocatable words) (machine : Machine) :
    replaceHeap words machine =
      .ok () { machine with
        heap := .zeroed words
        events :=
          (machine.events.push (.heapAcquired words)).push (.heapReleased machine.heap.size) } := by
  rw [replaceHeap, if_pos h]
  exact bind_of_ok (checkAllocatable_of_allocatable h machine)

/-- When the new heap cannot be allocated, the old one is released as the work unwinds. -/
theorem replaceHeap_of_not (h : ¬ Heap.Allocatable words) (machine : Machine) :
    replaceHeap words machine =
      .error { words } { machine with
        heap := .zeroed 0
        events := machine.events.push (.heapReleased machine.heap.size) } := by
  rw [replaceHeap, if_neg h, bind_of_ok (release_eq machine)]
  exact bind_of_error (checkAllocatable_of_not h _)

/-- Printing writes to the output, records the pairs entered and leaves the heap as it is. -/
theorem print_eq (word : Word) (limit : DepthLimit) (machine : Machine) :
    print word limit machine =
      let printing := TaggedValues.print word machine.heap limit machine.output
      .ok printing.result { machine with
        output := printing.sink
        events := machine.events ++ printing.visits.map .pairEntered } :=
  rfl

/-- An image is loaded as far as the heap reaches, with a warning if it does not fit. -/
theorem load_eq (image : Image) (machine : Machine) :
    load image machine =
      .ok image.result { machine with
        heap := machine.heap.fill image.heap
        events := machine.events ++ (Event.drops (image.fits machine.heap.size)).toArray } := by
  rw [load, bind_of_ok (readHeap_eq Heap.size machine)]
  cases hfits : image.fits machine.heap.size with
  | ok _ => simp only [Event.drops, Array.append_empty]; rfl
  | error cause => simp only [Event.drops, ← Array.push_eq_append]; rfl

end

/-! ## Orderly work -/

/-- From every machine the work leads to one where the record goes on and heaps took each other's
place, and if it ends early, the heap in use was released. -/
def Orderly {α : Type} (work : Work α) : Prop :=
  ∀ machine : Machine,
    match work machine with
    | .ok _ machine' => ∃ events sizes, machine.Continues machine' events sizes
    | .error _ machine' => ∃ events sizes, machine.Stops machine' events sizes

section
variable {α β : Type} {work : Work α} {next : α → Work β} {words : Nat}

/-- Doing nothing is orderly. -/
theorem Orderly.pure (a : α) : Orderly (pure a : Work α) :=
  fun machine => ⟨[], [], .refl machine⟩

/-- Orderly work in sequence is orderly: whichever part ends early, the heap in use by then is the
one released. -/
theorem Orderly.bind (h : Orderly work) (h' : ∀ a, Orderly (next a)) : Orderly (work >>= next) := by
  intro machine
  have hwork := h machine
  cases hresult : work machine with
  | error overflow machine' =>
    rw [hresult] at hwork
    rw [bind_of_error hresult]
    exact hwork
  | ok a machine' =>
    rw [hresult] at hwork
    rw [bind_of_ok hresult]
    obtain ⟨events, sizes, hcontinues⟩ := hwork
    have hnext := h' a machine'
    cases hresult' : next a machine' with
    | ok b machine'' =>
      rw [hresult'] at hnext
      obtain ⟨events', sizes', hcontinues'⟩ := hnext
      exact ⟨_, _, hcontinues.trans hcontinues'⟩
    | error overflow machine'' =>
      rw [hresult'] at hnext
      obtain ⟨events', sizes', hstops⟩ := hnext
      exact ⟨_, _, hcontinues.stops hstops⟩

/-- A report goes to its own list and leaves the record alone. -/
theorem orderly_report (fault : Fault) : Orderly (report fault) :=
  fun _ => ⟨[], [], .of_size (List.append_nil _).symm rfl rfl⟩

/-- A look at the heap is orderly. -/
theorem orderly_readHeap (look : Heap → α) : Orderly (readHeap look) :=
  fun machine => ⟨[], [], .refl machine⟩

/-- A change of the heap is orderly if it keeps the size. -/
theorem orderly_changeHeap {change : Heap → Heap × α}
    (h : ∀ heap, (change heap).1.size = heap.size) : Orderly (changeHeap change) :=
  fun machine => ⟨[], [], .of_size (List.append_nil _).symm rfl (h machine.heap)⟩

/-- Pairs that were entered add to the record, and none of them is a heap. -/
theorem orderly_noteVisits (visits : Array Visit) : Orderly (noteVisits visits) :=
  fun _ => ⟨_, [], .of_size (by rw [Array.toList_append, Array.toList_map])
    (Event.filter_isOfHeap_visits _) rfl⟩

/-- Printing is orderly, whatever becomes of the value and of the output. -/
theorem orderly_print (word : Word) (limit : DepthLimit) : Orderly (print word limit) :=
  fun _ => ⟨_, [], .of_size (by rw [Array.toList_append, Array.toList_map])
    (Event.filter_isOfHeap_visits _) rfl⟩

/-- A flush is orderly, whether the output refuses it or not. -/
theorem orderly_flushOutput : Orderly flushOutput :=
  fun _ => ⟨[], [], .of_size (List.append_nil _).symm rfl rfl⟩

/-- Replacing a heap is orderly, also when the new one cannot be allocated. -/
theorem orderly_replaceHeap (words : Nat) : Orderly (replaceHeap words) := by
  intro machine
  by_cases h : Heap.Allocatable words
  · rw [replaceHeap_eq h]
    exact ⟨[.heapAcquired words, .heapReleased machine.heap.size], [words], by simp, rfl, by simp⟩
  · rw [replaceHeap_of_not h]
    exact ⟨[.heapReleased machine.heap.size], [], by simp, rfl⟩

/-- Loading an image is orderly: a warning is no event of heaps, and the heap keeps its size. -/
theorem orderly_load (image : Image) : Orderly (load image) := by
  intro machine
  rw [load_eq]
  exact ⟨_, [], .of_size Array.toList_append (Event.filter_isOfHeap_drops _)
    (Heap.size_fill _ _)⟩

end

end Work

end TaggedValues
