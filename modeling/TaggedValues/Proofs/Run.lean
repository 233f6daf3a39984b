import TaggedValues.Proofs.Machine
import TaggedValues.Proofs.Print

/-!
# The course of a run

Every step of a program is orderly work (`Script.orderly_perform`), so programs are orderly as a
whole (`Program.orderly_execute`), however many steps they take and wherever they end. A run puts
the events of its own around those of the program and prints the word that the program returned
(`Program.run_of_execute_eq_ok`); together they tell of heaps each of which is released once
(`Program.run_lifecycle`).
-/

namespace TaggedValues

/-! ## Programs are orderly -/

namespace Script

open Work

/-- A chain keeps the size of the heap, wherever it stops. -/
theorem size_chain (heap : Heap) (start : UInt32) (side : Side) (previous : Word)
    (index count : Nat) : (chain heap start side previous index count).1.size = heap.size := by
  induction count generalizing heap previous index with
  | zero => rfl
  | succ count ih =>
    have hput := heap.size_putPair (start + 8 * UInt32.ofNat index)
      (side.elements previous index).1 (side.elements previous index).2
    unfold chain
    dsimp only
    split
    · next heap' h =>
      rw [h] at hput
      exact hput
    · next heap' pair h =>
      rw [h] at hput
      rw [ih]
      exact hput

/-- Rendering between steps is orderly. -/
theorem orderly_renderHere (word : Word) (limit : DepthLimit) (room : Option Nat) :
    Orderly (renderHere word limit room) :=
  (orderly_readHeap _).bind fun _ => (orderly_noteVisits _).bind fun _ => .pure _

/-- Every step is orderly work. -/
theorem orderly_perform (last : Word) (step : Step) : Orderly (step.perform last) := by
  cases step with
  | read | size | isEmpty | words | slice | kind =>
    exact (orderly_readHeap _).bind fun _ => .pure _
  | write offset value =>
    exact (orderly_changeHeap fun heap => heap.size_write _ _).bind fun _ => .pure _
  | poke offset value =>
    refine (orderly_changeHeap fun heap => ?_).bind fun _ => .pure _
    split
    · rw [Heap.poke_eq_write]
      exact heap.size_write offset _
    · rfl
  | putPair offset first second =>
    exact (orderly_changeHeap fun heap => heap.size_putPair _ _ _).bind fun _ => .pure _
  | chain start count side seed =>
    exact (orderly_changeHeap fun heap => size_chain heap _ _ _ _ _).bind fun _ => .pure _
  | render | text => exact (orderly_renderHere _ _ _).bind fun _ => .pure _
  | print value limit sink =>
    exact (orderly_readHeap _).bind fun _ => (orderly_noteVisits _).bind fun _ => .pure _
  | load source =>
    rw [Step.perform]
    cases Image.ofText source with
    | error fault => exact .pure _
    | ok image => exact (orderly_load image).bind fun _ => .pure _
  | replace count => exact (orderly_replaceHeap count).bind fun _ => .pure _

/-- All steps together are orderly work. -/
theorem orderly_performAll (last : Word) (answers : Array Answer) (steps : List Step) :
    Orderly (performAll last answers steps) := by
  induction steps generalizing last answers with
  | nil => exact .pure _
  | cons step rest ih => exact (orderly_perform last step).bind fun _ => ih _ _

end Script

namespace Native

open Work

/-- Entering and leaving native code is orderly. -/
theorem orderly_setActive (active : Bool) : Orderly (setActive active) :=
  fun _ => ⟨[], [], .of_size (List.append_nil _).symm rfl rfl⟩

/-- A store is orderly: heaps keep their size. -/
theorem orderly_store (offset : UInt32) (word : Word) : Orderly (store offset word) :=
  orderly_changeHeap fun heap => by
    rw [Heap.poke_eq_write]
    exact heap.size_write offset word

/-- A call is orderly, inside and outside of native code. -/
theorem orderly_call (word : Word) : Orderly (call word) := by
  have hget : Orderly get := fun machine => ⟨[], [], .refl machine⟩
  refine hget.bind fun machine => ?_
  cases machine.active with
  | false => exact .pure word
  | true =>
    refine (orderly_print word .byHeap).bind fun result => ?_
    cases result with
    | ok _ => exact .pure word
    | error fault =>
      exact (orderly_flushOutput.bind fun _ => orderly_report fault).bind fun _ => .pure word

/-- Native code is orderly, by induction on its steps, also when it finishes early. -/
theorem orderly_performAll (saved : Word) (steps : List Step) :
    Orderly (performAll saved steps) := by
  induction steps with
  | nil => exact .pure _
  | cons step rest ih =>
    cases step with
    | store offset word => exact (orderly_store offset word).bind fun _ => ih
    | print word => exact (orderly_call word).bind fun _ => ih
    | storePrinted offset word =>
      exact (orderly_call word).bind fun _ => (orderly_store offset _).bind fun _ => ih
    | printEarly word => exact ih
    | storeSaved offset => exact (orderly_store offset saved).bind fun _ => ih
    | finish word => exact .pure word

end Native

/-- Every program is orderly work. -/
theorem Program.orderly_execute (program : Program) : Work.Orderly program.execute := by
  cases program with
  | image image => exact (Work.orderly_load image).bind fun _ => .pure _
  | script steps result => exact (Script.orderly_performAll _ _ steps).bind fun _ => .pure _
  | native saved steps =>
    exact ((Native.orderly_setActive true).bind fun _ =>
      (Native.orderly_performAll saved steps).bind fun _ =>
        (Native.orderly_setActive false).bind fun _ => .pure _).bind fun _ => .pure _

/-! ## Runs -/

/-- The limit of a run is worked out on the heap that the value is printed against. -/
theorem print_fixed_levels (word : Word) (heap : Heap) (limit : DepthLimit) (sink : Sink) :
    print word heap (.fixed (limit.levels heap.size)) sink = print word heap limit sink :=
  rfl

namespace Program

section
variable {program : Program} {words : Nat} {limit : DepthLimit} {machine left : Machine}

/-- A program begins on a fresh heap, and what it does comes next. -/
theorem run_eq_bind (hwords : Heap.Allocatable words) :
    program.run words limit machine =
      (do
        let returned ← program.execute
        Work.note (.returned returned.word)
        let result ← Work.print returned.word limit
        if let .error cause := result then Work.note (.notPrinted cause)
        Work.release
        return ({ result, answers := returned.answers } : Conclusion)) (machine.started words) := by
  rw [run, Work.bind_of_ok (Work.acquire_eq hwords machine), Work.bind_of_ok (Work.note_eq ..)]
  rfl

/-- No program runs on a heap that no block of memory could hold. -/
theorem run_of_not_allocatable (program : Program) (limit : DepthLimit) (machine : Machine)
    (hwords : ¬ Heap.Allocatable words) :
    program.run words limit machine = .error { words } machine := by
  rw [run, Work.bind_of_error (Work.acquire_of_not hwords machine)]

/-- A program that ends early ends the run. -/
theorem run_of_execute_eq_error {overflow : CapacityOverflow} (hwords : Heap.Allocatable words)
    (h : program.execute (machine.started words) = .error overflow left) :
    program.run words limit machine = .error overflow left := by
  rw [run_eq_bind hwords, Work.bind_of_error h]

/-- A result that is a fault is warned of, and then the heap in use is released. -/
theorem conclude_eq (result : Except Fault Word) (answers : Array Script.Answer)
    (machine : Machine) :
    (do
      if let .error cause := result then Work.note (.notPrinted cause)
      Work.release
      return ({ result, answers } : Conclusion) : Work Conclusion) machine =
      .ok { result, answers } { machine with
        heap := .zeroed 0
        events := (machine.events ++ (Event.warnings result).toArray).push
          (.heapReleased machine.heap.size) } := by
  cases result with
  | ok word => simp only [Event.warnings, Array.append_empty]; rfl
  | error cause => simp only [Event.warnings, ← Array.push_eq_append]; rfl

/-- A program that returns has its word printed against the heap as it left it, and then that heap
is released. -/
theorem run_of_execute_eq_ok {returned : Returned} (hwords : Heap.Allocatable words)
    (h : program.execute (machine.started words) = .ok returned left) :
    let printing := print returned.word left.heap limit left.output
    program.run words limit machine =
      .ok { result := printing.result, answers := returned.answers } { left with
        heap := .zeroed 0
        output := printing.sink
        events := (left.events.push (.returned returned.word) ++
          printing.visits.map Event.pairEntered ++ (Event.warnings printing.result).toArray).push
            (.heapReleased left.heap.size) } := by
  rw [run_eq_bind hwords, Work.bind_of_ok h, Work.bind_of_ok (Work.note_eq ..),
    Work.bind_of_ok (Work.print_eq ..)]
  exact conclude_eq ..

/-- A run begins with a heap of zeros, prints the word of the program against the heap that the
program left, under the limit given by that heap if there is no other, and ends with the release of
that heap; the events of the program stand in between, and one warning tells of a result that could
not be printed. Each heap that is acquired on the way is released once, also if the program ends
early. -/
theorem run_lifecycle (program : Program) (words : Nat) (limit : DepthLimit) (machine : Machine)
    (hwords : Heap.Allocatable words) :
    match program.execute (machine.started words) with
    | .ok returned left =>
      let printing :=
        print returned.word left.heap (.fixed (limit.levels left.heap.size)) left.output
      ∃ (own happened : List Event) (sizes : List Nat) (stopped : Machine),
        program.run words limit machine =
            .ok { result := printing.result, answers := returned.answers } stopped ∧
          stopped.output = printing.sink ∧
          left.events.toList = (machine.started words).events.toList ++ own ∧
          stopped.events.toList = machine.events.toList ++ happened ∧
          happened =
            [.heapAcquired words, .running] ++ own ++ [.returned returned.word] ++
              printing.visits.toList.map .pairEntered ++ Event.warnings printing.result ++
              [.heapReleased left.heap.size] ∧
          happened.filter Event.isOfHeap =
            .heapAcquired words :: Event.turnover words sizes ++
              [.heapReleased (sizes.getLastD words)]
    | .error overflow left =>
      ∃ (own happened : List Event) (sizes : List Nat),
        program.run words limit machine = .error overflow left ∧
          left.events.toList = machine.events.toList ++ happened ∧
          happened = [.heapAcquired words, .running] ++ own ∧
          happened.filter Event.isOfHeap =
            .heapAcquired words :: Event.turnover words sizes ++
              [.heapReleased (sizes.getLastD words)] := by
  have horderly := program.orderly_execute (machine.started words)
  have hsize : (machine.started words).heap.size = words := Heap.size_zeroed words
  cases hexecute : program.execute (machine.started words) with
  | ok returned left =>
    rw [hexecute] at horderly
    obtain ⟨own, sizes, hcontinues⟩ := horderly
    have hrecord := hcontinues.record
    have hheaps := hcontinues.heaps
    have hinUse := hcontinues.inUse
    rw [hsize] at hheaps hinUse
    refine ⟨own, _, sizes, _, run_of_execute_eq_ok hwords hexecute, rfl, hrecord, ?_, rfl, ?_⟩
    · simp only [Array.toList_push, Array.toList_append, Array.toList_map, hrecord]
      simp [Machine.started, print_fixed_levels]
    · have hreturned : [Event.returned returned.word].filter Event.isOfHeap = [] := rfl
      simp only [List.filter_append, hreturned, Event.filter_isOfHeap_visits,
        Event.filter_isOfHeap_warnings, hheaps, hinUse, List.append_nil]
      rfl
  | error overflow left =>
    rw [hexecute] at horderly
    obtain ⟨own, sizes, hstops⟩ := horderly
    have hheaps := hstops.heaps
    rw [hsize] at hheaps
    refine ⟨own, _, sizes, run_of_execute_eq_error hwords hexecute, ?_, rfl, ?_⟩
    · simp [hstops.record, Machine.started]
    · rw [List.filter_append, hheaps]
      rfl

/-- A program that puts a larger heap in place of its first one, and on it a pair that contains
itself. -/
theorem run_lifecycle_replaced :
    let program : Program := .script [.replace 16, .putPair 8 (.word ⟨2⟩) (.word ⟨9⟩)] .last
    Heap.Allocatable 2 ∧
      ∃ (conclusion : Conclusion) (stopped : Machine),
        program.run 2 .byHeap {} = .ok conclusion stopped ∧
          conclusion.result = .error (.depthExceeded 3) ∧
          stopped.events.toList =
            [.heapAcquired 2, .running, .heapAcquired 16, .heapReleased 2, .returned ⟨9⟩,
              .pairEntered ⟨8, 0⟩, .pairEntered ⟨8, 1⟩, .pairEntered ⟨8, 2⟩,
              .notPrinted (.depthExceeded 3), .heapReleased 16] := by
  intro program
  have hwords : Heap.Allocatable 2 := by decide
  have h := program.run_lifecycle 2 .byHeap {} hwords
  obtain ⟨returned, left, hexecute, hword, hleft, hheap, houtput⟩ :
      ∃ returned left, program.execute (({} : Machine).started 2) = .ok returned left ∧
        returned.word = ⟨9⟩ ∧
        left.events.toList =
          [.heapAcquired 2, .running] ++ [.heapAcquired 16, .heapReleased 2] ∧
        left.heap = ((Heap.zeroed 16).putPair 8 ⟨2⟩ ⟨9⟩).1 ∧ left.output = {} :=
    ⟨_, _, rfl, rfl, rfl, rfl, rfl⟩
  rw [hexecute] at h
  obtain ⟨own, happened, sizes, stopped, hrun, -, hown, hhappened, rfl, -⟩ := h
  obtain rfl : [.heapAcquired 16, .heapReleased 2] = own :=
    List.append_cancel_left (hleft.symm.trans hown)
  have hrender : render ⟨9⟩ ((Heap.zeroed 16).putPair 8 ⟨2⟩ ⟨9⟩).1 (.fixed 3) {} =
      .error (.depthExceeded 3)
        { text := "(1, (1, (1, ", visits := #[⟨8, 0⟩, ⟨8, 1⟩, ⟨8, 2⟩] } := by
    cbv
  have hlevels : DepthLimit.byHeap.levels ((Heap.zeroed 16).putPair 8 ⟨2⟩ ⟨9⟩).1.size = 3 := by
    rw [Heap.size_putPair, Heap.size_zeroed]
    rfl
  rw [hword, hheap, houtput, hlevels, print_of_render_eq_error hrender] at hrun hhappened
  exact ⟨hwords, _, stopped, hrun, rfl, hhappened⟩

end

end Program

end TaggedValues
