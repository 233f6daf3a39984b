import TaggedValues.Native.Calls
import TaggedValues.Proofs.Run

/-!
# What native programs print

A call for printing gives its argument back on every machine, and does nothing else while no native
code runs (`Native.call_of_idle`). While native code runs on a reliable output (`Native.Running`), a
call adds its line or its report and leaves the heap as it is (`Native.exists_call_leads`); so the
steps of a program come to what its trace says, call by call (`Native.exists_performAll`), and the
heap stays active from the first of them to the last (`Native.exists_moment`).
-/

namespace TaggedValues

namespace Native

/-- Native code runs on the heap, and the output takes whatever it is offered. -/
structure Running (machine : Machine) (heap : Heap) : Prop where
  /-- The heap in use. -/
  heap : machine.heap = heap
  /-- The heap is active. -/
  active : machine.active = true
  /-- The output is reliable. -/
  reliable : machine.output.Reliable

/-- Native code led from the first machine to the second, on which it runs with the given heap, by
the given calls: the lines of those that could be rendered were received, and the faults of the
others were reported. -/
structure Leads (machine machine' : Machine) (heap : Heap) (calls : List Call) : Prop
    extends Running machine' heap where
  /-- The lines of the calls, in order, came behind what the output held. -/
  received : machine'.output.received =
    machine.output.received ++ (String.join (calls.filterMap Call.line?)).toUTF8
  /-- The faults of the calls, in order, came behind the reports there were. -/
  reports : machine'.reports.toList = machine.reports.toList ++ calls.filterMap Call.fault?

section
variable {machine machine' machine'' : Machine} {heap heap' : Heap} {calls calls' : List Call}

/-- Doing nothing leads from a machine to itself, without calls. -/
theorem Leads.refl (h : Running machine heap) : Leads machine machine heap [] where
  toRunning := h
  received := by simp
  reports := by simp

/-- The calls of one stretch of native code are followed by those of the next. -/
theorem Leads.trans (h : Leads machine machine' heap calls)
    (h' : Leads machine' machine'' heap' calls') :
    Leads machine machine'' heap' (calls ++ calls') where
  toRunning := h'.toRunning
  received := by
    rw [h'.received, h.received, List.filterMap_append, String.join_append, ByteArray.append_assoc]
    rfl
  reports := by rw [h'.reports, h.reports, List.filterMap_append, List.append_assoc]

/-- The way goes on from where a first piece of work leads. -/
theorem Leads.andThen {α : Type} {work : Work α} {next : α → Work Word} {a : α} {word : Word}
    (h : Leads machine machine' heap calls) (hwork : work machine = .ok a machine')
    (hnext : ∃ machine'', next a machine' = .ok word machine'' ∧
      Leads machine' machine'' heap' calls') :
    ∃ machine'', (work >>= next) machine = .ok word machine'' ∧
      Leads machine machine'' heap' (calls ++ calls') := by
  obtain ⟨machine'', hnext, h'⟩ := hnext
  exact ⟨machine'', (Work.bind_of_ok hwork).trans hnext, h.trans h'⟩

end

/-! ## Calls -/

section
variable {machine : Machine}

/-- While no native code runs, a call only gives its argument back. -/
theorem call_of_idle (hidle : machine.active = false) (word : Word) :
    call word machine = .ok word machine := by
  rw [call, Work.bind_of_ok (Work.get_eq machine)]
  simp only [hidle, Bool.false_eq_true, ↓reduceIte]
  rfl

/-- What a call prints, and what it reports, is decided by the outcome of printing. -/
theorem call_of_active (hactive : machine.active = true) (word : Word) :
    let printing := print word machine.heap .byHeap machine.output
    let printed : Machine := { machine with
      output := printing.sink
      events := machine.events ++ printing.visits.map .pairEntered }
    call word machine =
      match printing.result with
      | .ok _ => .ok word printed
      | .error fault => .ok word { printed with
          output := printing.sink.flush.1
          reports := machine.reports.push fault } := by
  intro printing printed
  rw [call, Work.bind_of_ok (Work.get_eq machine)]
  simp only [hactive, ↓reduceIte]
  rw [Work.bind_of_ok (Work.print_eq word .byHeap machine)]
  change (match printing.result with | .ok _ => _ | .error fault => _ : Work Word) printed = _
  cases printing.result with
  | ok _ => rfl
  | error fault => rfl

/-- Whatever a call comes to, it gives its argument back. -/
theorem exists_call (word : Word) (machine : Machine) :
    ∃ machine', call word machine = .ok word machine' := by
  cases hactive : machine.active with
  | false => exact ⟨machine, call_of_idle hactive word⟩
  | true =>
    rw [call_of_active hactive]
    split
    · exact ⟨_, rfl⟩
    · exact ⟨_, rfl⟩

/-- A call of native code adds its line to a reliable output, or its fault to the reports. -/
theorem exists_call_leads {heap : Heap} (h : Running machine heap) (word : Word) :
    ∃ machine', call word machine = .ok word machine' ∧
      Leads machine machine' heap [{ word, heap }] := by
  obtain ⟨rfl, hactive, houtput⟩ := h
  have hreliable := houtput.print word machine.heap .byHeap
  rw [call_of_active hactive]
  cases hrender : render word machine.heap .byHeap {} with
  | ok word' draft =>
    obtain ⟨hreceived, hresult⟩ := print_of_reliable houtput hrender
    have hline : Call.line? { word, heap := machine.heap } = some (draft.text ++ "\n") := by
      simp only [Call.line?, Word.toText, hrender]
    have hfault : Call.fault? { word, heap := machine.heap } = none := by
      simp only [Call.fault?, Word.toText, hrender]
    simp only [hresult]
    refine ⟨_, rfl, ⟨rfl, hactive, hreliable⟩, ?_, ?_⟩
    · rw [List.filterMap_cons_some hline, List.filterMap_nil, String.join_cons, String.join_nil,
        String.append_empty]
      exact hreceived
    · rw [List.filterMap_cons_none hfault, List.filterMap_nil, List.append_nil]
  | error fault draft =>
    have hline : Call.line? { word, heap := machine.heap } = none := by
      simp only [Call.line?, Word.toText, hrender]
    have hfault : Call.fault? { word, heap := machine.heap } = some fault := by
      simp only [Call.fault?, Word.toText, hrender]
    rw [print_of_render_eq_error hrender]
    -- the flush before the report adds nothing to what was received
    refine ⟨_, rfl, ⟨rfl, hactive, houtput.afterFlush⟩, ?_, ?_⟩
    · rw [List.filterMap_cons_none hline, List.filterMap_nil, String.join_nil]
      exact (ByteArray.append_empty).symm
    · rw [List.filterMap_cons_some hfault, List.filterMap_nil]
      exact Array.toList_push

/-- A store leads on with the heap poked and without a call. -/
theorem exists_store_leads {heap : Heap} (h : Running machine heap) (offset : UInt32)
    (word : Word) :
    ∃ machine', store offset word machine = .ok () machine' ∧
      Leads machine machine' (heap.poke offset word) [] := by
  obtain ⟨rfl, hactive, houtput⟩ := h
  exact ⟨_, rfl, ⟨rfl, hactive, houtput⟩, by simp, by simp⟩

end

/-! ## Programs -/

section
variable {machine : Machine}

/-- The steps of a program do what its trace says: the calls print and report in their order, and
the heap is the one that the stores leave. -/
theorem exists_performAll {heap : Heap} (h : Running machine heap) (saved : Word)
    (steps : List Step) :
    ∃ machine', performAll saved steps machine = .ok (trace heap saved steps).result machine' ∧
      Leads machine machine' (trace heap saved steps).heap (trace heap saved steps).calls := by
  induction steps generalizing machine heap with
  | nil => exact ⟨machine, rfl, .refl h⟩
  | cons step rest ih =>
    cases step with
    | store offset word =>
      obtain ⟨_, hstore, hleads⟩ := exists_store_leads h offset word
      exact hleads.andThen hstore (ih hleads.toRunning)
    | print word =>
      obtain ⟨_, hcall, hleads⟩ := exists_call_leads h word
      exact hleads.andThen hcall (ih hleads.toRunning)
    | storePrinted offset word =>
      obtain ⟨_, hcall, hcalled⟩ := exists_call_leads h word
      obtain ⟨_, hstore, hstored⟩ := exists_store_leads hcalled.toRunning offset word
      exact hcalled.andThen hcall (hstored.andThen hstore (ih hstored.toRunning))
    | printEarly word => exact ih h
    | storeSaved offset =>
      obtain ⟨_, hstore, hleads⟩ := exists_store_leads h offset saved
      exact hleads.andThen hstore (ih hleads.toRunning)
    | finish word => exact ⟨machine, rfl, .refl h⟩

/-- Steps that do not end the program are done before the ones behind them. -/
theorem performAll_append {saved : Word} {done : List Step} (hdone : ∀ word, .finish word ∉ done)
    (rest : List Step) :
    performAll saved (done ++ rest) =
      (do let _ ← performAll saved done; performAll saved rest) := by
  induction done with
  | nil =>
    rw [List.nil_append, performAll, pure_bind]
  | cons step done ih =>
    have hrest := ih fun word hmem => hdone word (List.mem_cons_of_mem step hmem)
    cases step with
    | store | print | storePrinted | storeSaved =>
      rw [List.cons_append, performAll, performAll]
      simp only [hrest, bind_assoc]
    | printEarly word =>
      rw [List.cons_append, performAll, performAll, hrest]
    | finish word => exact absurd List.mem_cons_self (hdone word)

/-- A program that has not ended has no other result than zero. -/
theorem result_trace_of_unfinished {heap : Heap} {saved : Word} {done : List Step}
    (hdone : ∀ word, .finish word ∉ done) : (trace heap saved done).result = ⟨0⟩ := by
  induction done generalizing heap with
  | nil => rfl
  | cons step done ih =>
    have hrest (heap : Heap) : (trace heap saved done).result = ⟨0⟩ :=
      ih fun word hmem => hdone word (List.mem_cons_of_mem step hmem)
    cases step with
    | finish word => exact absurd List.mem_cons_self (hdone word)
    | store | print | storePrinted | printEarly | storeSaved => exact hrest _

/-- Calls before the program give back their arguments, of which the last is saved, and do nothing
else. -/
theorem callEarly_of_idle (hidle : machine.active = false) (steps : List Step) (saved : Word) :
    callEarly saved steps machine =
      .ok ((steps.filterMap Step.early?).getLastD saved) machine := by
  induction steps generalizing saved with
  | nil => rfl
  | cons step rest ih =>
    cases step with
    | printEarly word =>
      rw [callEarly, Work.bind_of_ok (call_of_idle hidle word), ih,
        List.filterMap_cons_some (show Step.early? (.printEarly word) = some word from rfl),
        List.getLastD_cons]
    | store | print | storePrinted | storeSaved | finish => exact ih saved

/-- Native code becomes active, or ceases to be, and nothing else changes. -/
theorem setActive_eq (active : Bool) (machine : Machine) :
    setActive active machine = .ok () { machine with active } :=
  rfl

/-- Native code prints and reports what the calls of its trace do, and leaves the heap of its trace,
which is no longer active. -/
theorem exists_execute (houtput : machine.output.Reliable) (saved : Word) (steps : List Step) :
    ∃ left, execute saved steps machine = .ok (trace machine.heap saved steps).result left ∧
      left.active = false ∧ left.heap = (trace machine.heap saved steps).heap ∧
      left.output.Reliable ∧
      left.output.received =
        machine.output.received ++ (trace machine.heap saved steps).printed.toUTF8 ∧
      left.reports.toList =
        machine.reports.toList ++ (trace machine.heap saved steps).reported := by
  have hrunning : Running { machine with active := true } machine.heap := ⟨rfl, rfl, houtput⟩
  obtain ⟨machine', hperform, hleads⟩ := exists_performAll hrunning saved steps
  refine ⟨{ machine' with active := false }, ?_, rfl, hleads.heap, hleads.reliable,
    hleads.received, hleads.reports⟩
  rw [execute, Work.bind_of_ok (setActive_eq true machine), Work.bind_of_ok hperform]
  rfl

/-- Between any two steps of native code the heap is active, and the trace of the steps done tells
what it holds and what was printed and reported. -/
theorem exists_moment (houtput : machine.output.Reliable) (saved : Word) {done : List Step}
    (hdone : ∀ word, .finish word ∉ done) (rest : List Step) :
    let sofar := trace machine.heap saved done
    ∃ moment, moment.active = true ∧ moment.heap = sofar.heap ∧
      moment.output.received = machine.output.received ++ sofar.printed.toUTF8 ∧
      moment.reports.toList = machine.reports.toList ++ sofar.reported ∧
      performAll saved done { machine with active := true } = .ok ⟨0⟩ moment ∧
      execute saved (done ++ rest) machine =
        (do
          let word ← performAll saved rest
          setActive false
          return word) moment := by
  have hrunning : Running { machine with active := true } machine.heap := ⟨rfl, rfl, houtput⟩
  obtain ⟨moment, hperform, hleads⟩ := exists_performAll hrunning saved done
  rw [result_trace_of_unfinished hdone] at hperform
  refine ⟨moment, hleads.active, hleads.heap, hleads.received, hleads.reports, hperform, ?_⟩
  rw [execute, Work.bind_of_ok (setActive_eq true machine), performAll_append hdone, bind_assoc,
    Work.bind_of_ok hperform]

end

end Native

/-! ## Runs -/

/-- Native programs print as they go on. Calls before the program and behind it only give back their
arguments, and so does every other call whatever it prints; on the heap of the run, which is active
from the first step of the program to the last, each call prints its line, if its argument can be
rendered against the heap of that moment, or else reports the fault, and the program goes on. The
line of the result comes last, if it can be rendered under the limit of the run. If no block of
memory can hold the heap, nothing is done at all. -/
theorem Program.run_native (saved : Word) (steps : List Native.Step) (words : Nat)
    (limit : DepthLimit) (machine : Machine) (houtput : machine.output.Reliable)
    (hidle : machine.active = false) :
    (∀ word anywhere, ∃ after, Native.call word anywhere = .ok word after) ∧
      (∀ first, Native.callEarly first steps machine =
        .ok ((steps.filterMap Native.Step.early?).getLastD first) machine) ∧
      if Heap.Allocatable words then
        let traced := Native.trace (.zeroed words) saved steps
        (∀ done rest, steps = done ++ rest → (∀ word, .finish word ∉ done) →
          let sofar := Native.trace (.zeroed words) saved done
          ∃ moment, moment.active = true ∧ moment.heap = sofar.heap ∧
            moment.output.received = machine.output.received ++ sofar.printed.toUTF8 ∧
            moment.reports.toList = machine.reports.toList ++ sofar.reported ∧
            Native.performAll saved done { machine.started words with active := true } =
              .ok ⟨0⟩ moment ∧
            Native.execute saved steps (machine.started words) =
              (do
                let word ← Native.performAll saved rest
                Native.setActive false
                return word) moment) ∧
          ∃ conclusion stopped,
            (Program.native saved steps).run words limit machine = .ok conclusion stopped ∧
              stopped.reports.toList = machine.reports.toList ++ traced.reported ∧
              stopped.active = false ∧
              (∀ word, Native.call word stopped = .ok word stopped) ∧
              match render traced.result traced.heap limit {} with
              | .ok _ draft =>
                conclusion.result = .ok traced.result ∧
                  stopped.output.received = machine.output.received ++
                    (traced.printed ++ (draft.text ++ "\n")).toUTF8
              | .error fault _ =>
                conclusion.result = .error fault ∧
                  stopped.output.received = machine.output.received ++ traced.printed.toUTF8
      else
        (Program.native saved steps).run words limit machine = .error { words } machine := by
  refine ⟨Native.exists_call, Native.callEarly_of_idle hidle steps, ?_⟩
  by_cases hwords : Heap.Allocatable words
  · have hstarted : (machine.started words).output.Reliable := houtput
    rw [if_pos hwords]
    refine ⟨?_, ?_⟩
    · rintro done rest rfl hdone
      exact Native.exists_moment hstarted saved hdone rest
    · obtain ⟨left, hexecute, hactive, hheap, hreliable, hreceived, hreports⟩ :=
        Native.exists_execute hstarted saved steps
      -- the run has started on a heap of zeros
      replace hheap : left.heap = (Native.trace (.zeroed words) saved steps).heap := hheap
      have hprogram : (Program.native saved steps).execute (machine.started words) =
          .ok { word := (Native.trace (.zeroed words) saved steps).result } left := by
        rw [Program.execute, Work.bind_of_ok hexecute]
        rfl
      refine ⟨_, _, Program.run_of_execute_eq_ok hwords hprogram, hreports, hactive,
        Native.call_of_idle hactive, ?_⟩
      simp only [hheap]
      cases hrender : render (Native.trace (.zeroed words) saved steps).result
          (Native.trace (.zeroed words) saved steps).heap limit {} with
      | ok word draft =>
        obtain ⟨hline, hresult⟩ := print_of_reliable hreliable hrender
        refine ⟨hresult, hline.trans ?_⟩
        rw [hreceived, ByteArray.append_assoc]
        exact congrArg _ String.toByteArray_append.symm
      | error fault draft =>
        rw [print_of_render_eq_error hrender]
        exact ⟨rfl, hreceived⟩
  · rw [if_neg hwords]
    exact Program.run_of_not_allocatable _ limit machine hwords

/-- A program that prints a number, a pair that contains itself, and that pair again when it holds
numbers only; what it stores there last was given back by a call before it. -/
theorem Program.run_native_resumed :
    let steps : List Native.Step :=
      [.printEarly ⟨6⟩, .print ⟨2⟩, .store 0 ⟨2⟩, .store 1 ⟨1⟩, .print ⟨1⟩, .storePrinted 1 ⟨4⟩,
        .print ⟨1⟩, .storeSaved 0, .finish ⟨1⟩]
    Native.callEarly ⟨0⟩ steps {} = .ok ⟨6⟩ {} ∧
      ∃ (conclusion : Conclusion) (stopped : Machine),
        (Program.native ⟨6⟩ steps).run 16 .byHeap {} = .ok conclusion stopped ∧
          conclusion.result = .ok ⟨1⟩ ∧
          stopped.output.received = "1\n2\n(1, 2)\n(3, 2)\n".toUTF8 ∧
          stopped.reports.toList = [.depthExceeded 3] ∧ stopped.active = false := by
  intro steps
  obtain ⟨-, hearly, h⟩ :=
    Program.run_native ⟨6⟩ steps 16 .byHeap {} Sink.reliable_default rfl
  rw [if_pos (by decide)] at h
  obtain ⟨-, conclusion, stopped, hrun, hreports, hactive, -, hmatch⟩ := h
  have hlines : (Native.trace (.zeroed 16) ⟨6⟩ steps).calls.filterMap Native.Call.line? =
      ["1\n", "2\n", "(1, 2)\n"] := by
    unfold steps
    cbv
  have hreported : (Native.trace (.zeroed 16) ⟨6⟩ steps).reported = [.depthExceeded 3] := by
    unfold steps
    cbv
  have hrender : render (Native.trace (.zeroed 16) ⟨6⟩ steps).result
      (Native.trace (.zeroed 16) ⟨6⟩ steps).heap .byHeap {} =
        .ok ⟨1⟩ { text := "(3, 2)", visits := #[⟨0, 0⟩] } := by
    unfold steps
    cbv
  rw [hrender, Native.Trace.printed, hlines] at hmatch
  rw [hreported] at hreports
  exact ⟨hearly ⟨0⟩, conclusion, stopped, hrun, hmatch.1, hmatch.2.trans (by decide), hreports,
    hactive⟩

end TaggedValues
