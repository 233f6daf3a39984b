import TaggedValues.Print
import TaggedValues.Proofs.Render.Transcript

/-!
# What reaches a sink

A transfer into a sink ends when all bytes are taken or a call takes none. The room of the sink and
its portions decide how many bytes that are (`Sink.accepted`): as many as fit, unless a portion is
empty (`Sink.flow`). They are the first of the bytes, however they were portioned
(`Sink.received_writeFrom`), and the transfer fails exactly when some are left
(`Sink.writeFrom_snd`). So a value that is printed reaches the sink from its beginning up to where
the sink stops, and a value that cannot be rendered does not reach it at all
(`print_all_or_nothing`).
-/

namespace TaggedValues

namespace Sink

/-- The number of bytes in the portions in front of the first empty one, or `none` if no portion is
empty, so that the portions never end a transfer. -/
def flow (portion : Option Nat) : List Nat → Option Nat
  | [] => if portion = some 0 then some 0 else none
  | size :: rest => if size = 0 then some 0 else (flow portion rest).map (size + ·)

/-- How many of `offered` bytes the sink takes before a call takes none. -/
def accepted (sink : Sink) (offered : Nat) : Nat :=
  atMost sink.room (atMost (flow sink.portion sink.portions) offered)

/-- The sink takes whatever it is offered, in one portion or more, and can be flushed. -/
structure Reliable (sink : Sink) : Prop where
  /-- There is no bound on its room. -/
  room : sink.room = none
  /-- None of the next portions is empty. -/
  portions : 0 ∉ sink.portions
  /-- None of the portions behind those is empty. -/
  portion : sink.portion ≠ some 0
  /-- It can be flushed. -/
  flush : sink.refusesFlush = false

section
variable {bound portion : Option Nat} {portions : List Nat} {n : Nat}

/-- A bound leaves nothing if it is zero or there was nothing. -/
theorem atMost_eq_zero_iff : atMost bound n = 0 ↔ bound = some 0 ∨ n = 0 := by
  cases bound with
  | none => simp [atMost]
  | some bound => simp only [atMost, Option.some.injEq]; omega

/-- Portions that are not empty let everything through, whatever their sizes. -/
theorem flow_of_nonempty (hportions : 0 ∉ portions) (hportion : portion ≠ some 0) :
    flow portion portions = none := by
  induction portions with
  | nil => exact if_neg hportion
  | cons size rest ih =>
    rw [List.mem_cons, not_or] at hportions
    rw [flow, if_neg (Ne.symm hportions.1), ih hportions.2, Option.map_none]

/-- If the first portion is empty, nothing gets through. -/
theorem flow_of_empty (h : portions.head?.or portion = some 0) :
    flow portion portions = some 0 := by
  cases portions with
  | nil => exact if_pos h
  | cons size rest => exact if_pos (Option.some.inj h)

/-- What the portions let through is the first of them and what comes behind it. -/
theorem atMost_flow (h : portions.head?.or portion ≠ some 0) :
    atMost (flow portion portions) n =
      atMost (portions.head?.or portion) n +
        atMost (flow portion portions.tail) (n - atMost (portions.head?.or portion) n) := by
  cases portions with
  | nil =>
    have hflow : flow portion [] = none := if_neg h
    have hle := atMost_le portion n
    rw [List.tail_nil, List.head?_nil, Option.none_or, hflow]
    exact (Nat.add_sub_of_le hle).symm
  | cons size rest =>
    have hsize : size ≠ 0 := fun hsize => h (congrArg some hsize)
    simp only [flow, if_neg hsize, List.head?_cons, Option.some_or, List.tail_cons]
    cases flow portion rest with
    | none => simp only [Option.map_none, atMost]; omega
    | some bound => simp only [Option.map_some, atMost]; omega

end

section
variable {sink : Sink} {bytes : ByteArray} {start offered : Nat}

/-- A sink accepts no more than it is offered. -/
theorem accepted_le (sink : Sink) (offered : Nat) : sink.accepted offered ≤ offered :=
  Nat.le_trans (atMost_le _ _) (atMost_le _ _)

/-- A reliable sink accepts all it is offered. -/
theorem Reliable.accepted_eq (h : sink.Reliable) (offered : Nat) :
    sink.accepted offered = offered := by
  rw [accepted, h.room, flow_of_nonempty h.portions h.portion]
  rfl

/-- A sink without bounds is reliable. -/
theorem reliable_default : Reliable {} := ⟨rfl, List.not_mem_nil, nofun, rfl⟩

/-- A call that takes none of the bytes offered is the last. -/
theorem accepted_of_taken_eq_zero (h : sink.taken offered = 0) : sink.accepted offered = 0 := by
  rw [taken, atMost_eq_zero_iff, atMost_eq_zero_iff] at h
  rw [accepted, atMost_eq_zero_iff, atMost_eq_zero_iff]
  exact h.imp_right (Or.imp_left flow_of_empty)

/-- The bytes that a call takes come in front of those taken later. -/
theorem accepted_take (bytes : ByteArray) (start : Nat) (h : sink.taken offered ≠ 0) :
    sink.accepted offered =
      sink.taken offered +
        (sink.take bytes start (sink.taken offered)).accepted (offered - sink.taken offered) := by
  rw [taken, ne_eq, atMost_eq_zero_iff, atMost_eq_zero_iff, not_or, not_or] at h
  rw [accepted, atMost_flow h.2.1]
  simp only [accepted, take, taken]
  cases sink.room with
  | none => rfl
  | some room =>
    generalize atMost (sink.portions.head?.or sink.portion) offered = count
    simp only [Option.map_some, atMost]
    rcases Nat.le_total room count with hle | hle
    · -- the call fills the room, and no later one takes anything
      rw [Nat.min_eq_left hle, Nat.sub_self]
      omega
    · rw [Nat.min_eq_right hle]
      omega

/-! ## Transfers -/

/-- The sink receives as many of the bytes as it accepts, from the first of them on. -/
theorem received_writeFrom (hstart : start ≤ bytes.size) :
    (sink.writeFrom bytes start).1.received =
      sink.received ++ bytes.extract start (start + sink.accepted (bytes.size - start)) := by
  fun_induction writeFrom sink bytes start with
  | case1 sink start hlt count hpos ih =>
    have hle : start + count ≤ bytes.size := by
      have := sink.taken_le (bytes.size - start)
      omega
    have hextract (later : Nat) : bytes.extract start (start + count) ++
        bytes.extract (start + count) (start + count + later) =
          bytes.extract start (start + (count + later)) := by
      rw [ByteArray.extract_append_extract, Nat.min_eq_left (Nat.le_add_right ..),
        Nat.max_eq_right (Nat.le_add_right ..), Nat.add_assoc]
    rw [ih hle, accepted_take bytes start (Nat.ne_of_gt hpos),
      ← hextract, ← ByteArray.append_assoc, Nat.sub_add_eq]
    rfl
  | case2 sink start hlt count hpos =>
    rw [accepted_of_taken_eq_zero (Nat.eq_zero_of_not_pos hpos), Nat.add_zero,
      ByteArray.extract_same, ByteArray.append_empty]
  | case3 sink start hle =>
    have haccepted : sink.accepted (bytes.size - start) = 0 :=
      Nat.le_zero.1 (Nat.sub_eq_zero_of_le (Nat.not_lt.1 hle) ▸ sink.accepted_le _)
    rw [haccepted, Nat.add_zero, ByteArray.extract_same, ByteArray.append_empty]

/-- A transfer succeeds when the sink accepts all bytes. -/
theorem writeFrom_snd (hstart : start ≤ bytes.size) :
    (sink.writeFrom bytes start).2 =
      if sink.accepted (bytes.size - start) = bytes.size - start then .ok ()
      else .error .shortWrite := by
  fun_induction writeFrom sink bytes start with
  | case1 sink start hlt count hpos ih =>
    have hle : count ≤ bytes.size - start := sink.taken_le _
    have haccepted := accepted_take bytes start (Nat.ne_of_gt hpos)
    have hrest (later : Nat) : later = bytes.size - start - count ↔
        count + later = bytes.size - start := by omega
    rw [ih (by omega), haccepted, Nat.sub_add_eq]
    exact ite_congr (propext (hrest _)) (fun _ => rfl) (fun _ => rfl)
  | case2 sink start hlt count hpos =>
    rw [accepted_of_taken_eq_zero (Nat.eq_zero_of_not_pos hpos), if_neg (by omega)]
  | case3 sink start hle =>
    have := sink.accepted_le (bytes.size - start)
    rw [if_pos (by omega)]

/-- A transfer does not flush. -/
theorem flushes_writeFrom (sink : Sink) (bytes : ByteArray) (start : Nat) :
    (sink.writeFrom bytes start).1.flushes = sink.flushes := by
  fun_induction writeFrom sink bytes start with
  | case1 sink start hlt count hpos ih => exact ih
  | case2 | case3 => rfl

/-- Writing does not change whether a sink refuses to flush. -/
theorem refusesFlush_writeFrom (sink : Sink) (bytes : ByteArray) (start : Nat) :
    (sink.writeFrom bytes start).1.refusesFlush = sink.refusesFlush := by
  fun_induction writeFrom sink bytes start with
  | case1 sink start hlt count hpos ih => exact ih
  | case2 | case3 => rfl

/-- A reliable sink stays reliable, whatever it takes. -/
theorem Reliable.take (h : sink.Reliable) (bytes : ByteArray) (start count : Nat) :
    (sink.take bytes start count).Reliable where
  room := by rw [Sink.take, h.room, Option.map_none]
  portions hmem := h.portions (List.mem_of_mem_tail hmem)
  portion := h.portion
  flush := h.flush

/-- A reliable sink is so after a write. -/
theorem Reliable.writeFrom (h : sink.Reliable) (bytes : ByteArray) (start : Nat) :
    (sink.writeFrom bytes start).1.Reliable := by
  fun_induction Sink.writeFrom sink bytes start with
  | case1 sink start hlt count hpos ih => exact ih (h.take ..)
  | case2 | case3 => exact h

/-- A reliable sink is so after a flush. -/
theorem Reliable.afterFlush (h : sink.Reliable) : sink.flush.1.Reliable :=
  ⟨h.room, h.portions, h.portion, h.flush⟩

end

end Sink

/-! ## Printing -/

section
variable {word word' : Word} {heap : Heap} {limit : DepthLimit} {draft draft' : Draft}
  {fault : Fault}

/-- Rendering gives back the word it was given. -/
theorem eq_of_render_eq_ok (h : render word heap limit draft = .ok word' draft') :
    word' = word := by
  obtain ⟨_, _, -, h⟩ := Drafting.bind_eq_ok h
  cases h
  rfl

/-- A value that cannot be rendered leaves the sink as it is. -/
theorem print_of_render_eq_error (h : render word heap limit {} = .error fault draft)
    (sink : Sink) :
    print word heap limit sink = { sink, visits := draft.visits, result := .error fault } := by
  simp only [print, h]

/-- A value that can be rendered reaches the sink as far as that accepts its line, and the sink is
flushed if that is all of it. -/
theorem print_of_render_eq_ok (h : render word heap limit {} = .ok word' draft) {line : ByteArray}
    (hline : (draft.text ++ "\n").toUTF8 = line) (sink : Sink) :
    (print word heap limit sink).sink.received =
        sink.received ++ line.extract 0 (sink.accepted line.size) ∧
      (print word heap limit sink).visits = draft.visits ∧
      if sink.accepted line.size = line.size then
        (print word heap limit sink).sink.flushes = sink.flushes + 1 ∧
          (print word heap limit sink).result =
            if sink.refusesFlush then .error (.transfer .flushRefused) else .ok word
      else
        (print word heap limit sink).sink.flushes = sink.flushes ∧
          (print word heap limit sink).result = .error (.transfer .shortWrite) := by
  obtain rfl := eq_of_render_eq_ok h
  have hreceived := sink.received_writeFrom (Nat.zero_le line.size)
  have hsnd := sink.writeFrom_snd (Nat.zero_le line.size)
  have hflushes := sink.flushes_writeFrom line 0
  have hrefuses := sink.refusesFlush_writeFrom line 0
  rw [Nat.zero_add, Nat.sub_zero] at hreceived
  rw [Nat.sub_zero] at hsnd
  simp only [print, h, hline, Sink.writeAll]
  rcases hwrite : sink.writeFrom line 0 with ⟨sink', result⟩
  rw [hwrite] at hreceived hsnd hflushes hrefuses
  by_cases haccepted : sink.accepted line.size = line.size
  · rw [if_pos haccepted] at hsnd ⊢
    obtain rfl : result = .ok () := hsnd
    have hrefuses : sink'.refusesFlush = sink.refusesFlush := hrefuses
    have hflushes : sink'.flushes = sink.flushes := hflushes
    simp only [Sink.flush, hrefuses, hflushes]
    cases sink.refusesFlush with
    | true => exact ⟨hreceived, rfl, rfl, rfl⟩
    | false => exact ⟨hreceived, rfl, rfl, rfl⟩
  · rw [if_neg haccepted] at hsnd ⊢
    obtain rfl : result = .error .shortWrite := hsnd
    exact ⟨hreceived, rfl, hflushes, rfl⟩

/-- Printing leaves a reliable sink reliable, also if the value cannot be rendered. -/
theorem Sink.Reliable.print {sink : Sink} (h : sink.Reliable) (word : Word) (heap : Heap)
    (limit : DepthLimit) : (print word heap limit sink).sink.Reliable := by
  unfold TaggedValues.print
  cases render word heap limit {} with
  | error fault draft => exact h
  | ok word draft =>
    have hwritten := h.writeFrom (draft.text ++ "\n").toUTF8 0
    simp only [Sink.writeAll]
    rcases hwrite : sink.writeFrom (draft.text ++ "\n").toUTF8 0 with ⟨sink', result⟩
    rw [hwrite] at hwritten
    cases result with
    | error cause => exact hwritten
    | ok _ =>
      have hflushed := hwritten.afterFlush
      rcases hflush : sink'.flush with ⟨sink'', result⟩
      rw [hflush] at hflushed
      cases result with
      | error cause => simpa only [hflush] using hflushed
      | ok _ => simpa only [hflush] using hflushed

/-- A reliable sink receives the text of the value and a line feed. -/
theorem print_of_reliable {sink : Sink} (hsink : sink.Reliable)
    (h : render word heap limit {} = .ok word' draft) :
    (print word heap limit sink).sink.received =
        sink.received ++ (draft.text ++ "\n").toUTF8 ∧
      (print word heap limit sink).result = .ok word := by
  obtain ⟨hreceived, -, hresult⟩ := print_of_render_eq_ok h rfl sink
  rw [hsink.accepted_eq, ByteArray.extract_zero_size] at hreceived
  rw [hsink.accepted_eq, if_pos rfl, hsink.flush] at hresult
  exact ⟨hreceived, hresult.2⟩

end

/-- Printing hands nothing to the sink if the value cannot be rendered. Otherwise the sink holds the
first of the bytes of the line, as many as it accepts: those that fit into its room, whatever the
sizes of the portions in which it takes them, and none if it takes no bytes at a time. If that is
the whole line, the sink is flushed once. -/
theorem print_all_or_nothing (word : Word) (heap : Heap) (limit : DepthLimit) (sink : Sink) :
    let printing := print word heap limit sink
    match render word heap limit {} with
    | .error fault _ => printing.sink = sink ∧ printing.result = .error fault
    | .ok _ draft =>
      let line := (draft.text ++ "\n").toUTF8
      let count := sink.accepted line.size
      printing.sink.received = sink.received ++ line.extract 0 count ∧
        (if count = line.size then
          printing.sink.flushes = sink.flushes + 1 ∧
            printing.result =
              if sink.refusesFlush then .error (.transfer .flushRefused) else .ok word
        else
          printing.sink.flushes = sink.flushes ∧
            printing.result = .error (.transfer .shortWrite)) ∧
        (0 ∉ sink.portions → sink.portion ≠ some 0 →
          count = Sink.atMost sink.room line.size) ∧
        (sink.portions.head?.or sink.portion = some 0 → count = 0) := by
  cases hrender : render word heap limit {} with
  | error fault draft =>
    rw [print_of_render_eq_error hrender]
    exact ⟨rfl, rfl⟩
  | ok word' draft =>
    obtain ⟨hreceived, -, hresult⟩ := print_of_render_eq_ok hrender rfl sink
    refine ⟨hreceived, hresult, ?_, ?_⟩
    · intro hportions hportion
      rw [Sink.accepted, Sink.flow_of_nonempty hportions hportion]
      rfl
    · intro hempty
      rw [Sink.accepted, Sink.flow_of_empty hempty, Sink.atMost_eq_zero_iff]
      exact .inr (Nat.zero_min _)

end TaggedValues
