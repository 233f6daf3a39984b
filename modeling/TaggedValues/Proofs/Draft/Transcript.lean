import TaggedValues.Draft

/-!
# Transcripts of work on drafts

A `Transcript` is what a work comes to when nothing cuts it short: the text it writes, the pairs it
enters and the fault that ends it, if any. It knows nothing of drafts. Work follows a transcript
(`Drafting.Follows`) when every draft decides alone what becomes of it: the whole transcript goes
into a draft with room for its text, and the beginning of the text into a smaller one. Work in
sequence follows the sequence of the transcripts (`Drafting.Follows.andThen`), which a fault in the
first of them ends.
-/

namespace TaggedValues

/-- What a work writes, the pairs it enters, and the fault that ends it. -/
structure Transcript where
  /-- The text written. -/
  text : String := ""
  /-- The pairs entered, in order. -/
  visits : List Visit := []
  /-- The fault at the end, if there is one. -/
  fault? : Option Fault := none
deriving DecidableEq, Repr

namespace Transcript

/-- A piece of text is written. -/
def piece (text : String) : Transcript := { text }

/-- A pair is entered. -/
def entry (visit : Visit) : Transcript := { visits := [visit] }

/-- A fault ends the work. -/
def failure (fault : Fault) : Transcript := { fault? := some fault }

/-- One transcript and then another, which a fault in the first leaves out. -/
def andThen (t t' : Transcript) : Transcript :=
  match t.fault? with
  | some _ => t
  | none => { text := t.text ++ t'.text, visits := t.visits ++ t'.visits, fault? := t'.fault? }

/-- A draft with the whole transcript behind what it held. -/
def appended (t : Transcript) (draft : Draft) : Draft :=
  { text := draft.text ++ t.text
    room := draft.room.map (· - t.text.length)
    visits := draft.visits ++ t.visits.toArray }

/-- The end of a work that puts the whole transcript into a draft and gives `a`, unless it fails. -/
def outcome {α : Type} (t : Transcript) (a : α) (draft : Draft) : EStateM.Result Fault Draft α :=
  match t.fault? with
  | none => .ok a (t.appended draft)
  | some fault => .error fault (t.appended draft)

section
variable {t t' : Transcript} {fault : Fault}

@[simp] theorem fault?_piece (text : String) : (piece text).fault? = none := rfl

@[simp] theorem fault?_entry (visit : Visit) : (entry visit).fault? = none := rfl

@[simp] theorem text_piece (text : String) : (piece text).text = text := rfl

@[simp] theorem text_entry (visit : Visit) : (entry visit).text = "" := rfl

/-- Pieces join. -/
theorem piece_andThen_piece (text rest : String) :
    (piece text).andThen (piece rest) = piece (text ++ rest) := rfl

/-- A fault in the first transcript leaves the second one out. -/
theorem andThen_of_some (h : t.fault? = some fault) : t.andThen t' = t := by
  simp only [andThen, h]

/-- Without a fault in the first transcript, the second one follows it. -/
theorem andThen_of_none (h : t.fault? = none) :
    t.andThen t' =
      { text := t.text ++ t'.text, visits := t.visits ++ t'.visits, fault? := t'.fault? } := by
  simp only [andThen, h]

/-- The fault of a sequence is the first of the faults. -/
@[simp] theorem fault?_andThen (t t' : Transcript) :
    (t.andThen t').fault? = t.fault?.or t'.fault? := by
  cases h : t.fault? with
  | none => rw [andThen_of_none h, Option.none_or]
  | some fault => rw [andThen_of_some h, h, Option.some_or]

/-- The fault of a pair is that of its first element, or else that of its second. -/
theorem fault?_brackets (visit : Visit) (t t' : Transcript) :
    (andThen (entry visit) <| andThen (piece "(") <| andThen t <| andThen (piece ", ") <|
      andThen t' (piece ")")).fault? = t.fault?.or t'.fault? := by
  simp only [fault?_andThen, fault?_entry, fault?_piece, Option.none_or, Option.or_none]

/-- The texts of a sequence join, unless the first transcript ends it. -/
theorem text_andThen (h : t.fault? = none) : (t.andThen t').text = t.text ++ t'.text := by
  rw [andThen_of_none h]

/-- Nothing written leaves a draft as it is. -/
theorem appended_piece_empty (draft : Draft) : (piece "").appended draft = draft := by
  rcases draft with ⟨text, room, visits⟩
  simp [appended, piece]

/-- An entered pair is noted and leaves the text and the room of a draft as they are. -/
theorem appended_entry (visit : Visit) (draft : Draft) :
    (entry visit).appended draft = { draft with visits := draft.visits.push visit } := by
  rcases draft with ⟨text, room, visits⟩
  simp [appended, entry]

/-- A fault alone leaves a draft as it is. -/
theorem appended_failure (fault : Fault) (draft : Draft) :
    (failure fault).appended draft = draft := by
  rcases draft with ⟨text, room, visits⟩
  simp [appended, failure]

/-- A draft takes a sequence one transcript after the other. -/
theorem appended_andThen (h : t.fault? = none) (draft : Draft) :
    (t.andThen t').appended draft = t'.appended (t.appended draft) := by
  have hroom (room : Nat) : room - (t.text ++ t'.text).length =
      room - t.text.length - t'.text.length := by
    rw [String.length_append, Nat.sub_add_eq]
  have hvisits : (t.visits ++ t'.visits).toArray = t.visits.toArray ++ t'.visits.toArray :=
    (List.append_toArray ..).symm
  rw [andThen_of_none h]
  simp only [appended, hroom, hvisits, String.append_assoc, Array.append_assoc, Option.map_map,
    Function.comp_def]

/-- The second transcript of a sequence ends it, unless the first does. -/
theorem outcome_andThen {α : Type} (h : t.fault? = none) (a : α) (draft : Draft) :
    (t.andThen t').outcome a draft = t'.outcome a (t.appended draft) := by
  simp only [outcome, fault?_andThen, h, Option.none_or, appended_andThen h]

/-- A transcript without a fault ends well, with all of it in the draft. -/
theorem outcome_of_none {α : Type} (h : t.fault? = none) (a : α) (draft : Draft) :
    t.outcome a draft = .ok a (t.appended draft) := by
  simp only [outcome, h]

/-- A transcript with a fault ends in this fault, also with all of it in the draft. -/
theorem outcome_of_some {α : Type} (h : t.fault? = some fault) (a : α) (draft : Draft) :
    t.outcome a draft = .error fault (t.appended draft) := by
  simp only [outcome, h]

end

end Transcript

/-- The draft has room for the text. -/
def Draft.Holds (draft : Draft) (text : String) : Prop :=
  ∀ room ∈ draft.room, text.length ≤ room

/-- A draft without a bound has room for every text. -/
theorem Draft.holds_of_room_eq_none (draft : Draft) (h : draft.room = none) (text : String) :
    draft.Holds text := by
  rw [Draft.Holds, h]
  nofun

/-- A bounded draft has room for every text up to its bound. -/
theorem Draft.holds_of_room_eq_some (draft : Draft) {room : Nat} {text : String}
    (h : draft.room = some room) (hle : text.length ≤ room) : draft.Holds text := by
  intro room' hroom'
  obtain rfl : room = room' := Option.some.inj (h.symm.trans hroom')
  exact hle

/-- A draft with room for two texts has room for the first. -/
theorem Draft.Holds.left {draft : Draft} {text rest : String} (h : draft.Holds (text ++ rest)) :
    draft.Holds text := by
  intro room hroom
  have := h room hroom
  rw [String.length_append] at this
  omega

/-- A draft with room for two texts has room for the second behind the first. -/
theorem Transcript.holds_appended {t : Transcript} {draft : Draft} {rest : String}
    (h : draft.Holds (t.text ++ rest)) : (t.appended draft).Holds rest := by
  intro room' hroom'
  obtain ⟨room, hroom, rfl⟩ := Option.map_eq_some_iff.1 hroom'
  have := h room hroom
  rw [String.length_append] at this
  omega

/-- A draft that does not have room for a text has a bound below it. -/
theorem Draft.exists_room_of_not_holds (draft : Draft) {text : String} (h : ¬ draft.Holds text) :
    ∃ room, draft.room = some room ∧ room < text.length := by
  cases hroom : draft.room with
  | none => exact absurd (draft.holds_of_room_eq_none hroom text) h
  | some room =>
    exact ⟨room, rfl, Nat.lt_of_not_le fun hle => h (draft.holds_of_room_eq_some hroom hle)⟩

/-! ## Work that follows a transcript -/

namespace Drafting

/-- The work does what the transcript says, as far as the draft has room for it. -/
structure Follows (work : Drafting Unit) (t : Transcript) : Prop where
  /-- With room for the text, the whole transcript goes into the draft. -/
  whole : ∀ draft : Draft, draft.Holds t.text → work draft = t.outcome () draft
  /-- Without, the beginning of the text fills the draft. -/
  cut : ∀ (draft : Draft) (room : Nat), draft.room = some room → room < t.text.length →
    ∃ visits, work draft = .error .draftFull
      { text := draft.text ++ String.ofList (t.text.toList.take room), room := some 0, visits }

/-- Doing nothing follows the empty piece. -/
theorem follows_pure : Follows (pure ()) (.piece "") where
  whole draft _ := by
    rw [Transcript.outcome_of_none rfl, Transcript.appended_piece_empty]
    rfl
  cut _ _ _ hlt := absurd hlt (Nat.not_lt_zero _)

/-- Writing follows its piece: it is the one step that a draft can cut. -/
theorem follows_write (piece : String) : Follows (Draft.write piece) (.piece piece) where
  whole draft hroom := by
    rw [Transcript.outcome_of_none rfl]
    rcases draft with ⟨text, room, visits⟩
    cases room with
    | none => simp [Draft.write, Transcript.appended, Transcript.piece]
    | some room =>
      have hle : piece.length ≤ room := hroom room rfl
      simp [Draft.write, hle, Transcript.appended, Transcript.piece]
  cut draft room hroom hlt := by
    rcases draft with ⟨text, _, visits⟩
    obtain rfl : _ = some room := hroom
    have hnle : ¬ piece.length ≤ room := Nat.not_le_of_lt hlt
    refine ⟨visits, ?_⟩
    simp only [Draft.write, hnle, ↓reduceIte, Transcript.piece]

/-- Entering a pair follows the entry, in every draft. -/
theorem follows_enter (visit : Visit) : Follows (Draft.enter visit) (.entry visit) where
  whole draft _ := by
    rw [Transcript.outcome_of_none rfl, Transcript.appended_entry]
    rfl
  cut _ _ _ hlt := absurd hlt (Nat.not_lt_zero _)

/-- Failing follows the fault, in every draft. -/
theorem follows_throw (fault : Fault) : Follows (throw fault) (.failure fault) where
  whole draft _ := by
    rw [Transcript.outcome_of_some rfl, Transcript.appended_failure]
    rfl
  cut _ _ _ hlt := absurd hlt (Nat.not_lt_zero _)

section
variable {work work' : Drafting Unit} {t t' : Transcript} {fault : Fault}

/-- Work that fails ends a sequence. -/
theorem andThen_eq_error {α : Type} {next : Drafting α} {draft draft' : Draft}
    (h : work draft = .error fault draft') : (do work; next) draft = .error fault draft' := by
  simp only [bind, EStateM.bind, h]

/-- Work that succeeds hands its draft on. -/
theorem andThen_eq {α : Type} {next : Drafting α} {draft draft' : Draft}
    (h : work draft = .ok () draft') : (do work; next) draft = next draft' := by
  simp only [bind, EStateM.bind, h]

/-- Work in sequence follows the sequence of the transcripts. -/
theorem Follows.andThen (h : Follows work t) (h' : Follows work' t') :
    Follows (do work; work') (t.andThen t') := by
  cases hfault : t.fault? with
  | some fault =>
    -- the second work is never begun, and its transcript is left out
    rw [Transcript.andThen_of_some hfault]
    refine ⟨fun draft hroom => ?_, fun draft room hroom hlt => ?_⟩
    · rw [t.outcome_of_some hfault]
      exact andThen_eq_error ((h.whole draft hroom).trans (t.outcome_of_some hfault () draft))
    · obtain ⟨visits, hcut⟩ := h.cut draft room hroom hlt
      exact ⟨visits, andThen_eq_error hcut⟩
  | none =>
    have hfirst (draft : Draft) (hroom : draft.Holds t.text) :
        (do work; work') draft = work' (t.appended draft) :=
      andThen_eq ((h.whole draft hroom).trans (t.outcome_of_none hfault () draft))
    refine ⟨fun draft hroom => ?_, fun draft room hroom hlt => ?_⟩
    · rw [Transcript.text_andThen hfault] at hroom
      rw [hfirst draft hroom.left, h'.whole _ (Transcript.holds_appended hroom),
        Transcript.outcome_andThen hfault]
    · rw [Transcript.text_andThen hfault, String.length_append] at hlt
      rw [Transcript.text_andThen hfault, String.toList_append]
      by_cases hle : t.text.length ≤ room
      · have hroom' : (t.appended draft).room = some (room - t.text.length) := by
          simp only [Transcript.appended, hroom, Option.map_some]
        obtain ⟨visits, hcut⟩ := h'.cut _ _ hroom' (by omega)
        refine ⟨visits, ?_⟩
        rw [hfirst draft (draft.holds_of_room_eq_some hroom hle), hcut]
        have htake : t.text.toList.take room = t.text.toList :=
          List.take_of_length_le (String.length_toList ▸ hle)
        simp only [Transcript.appended, List.take_append, htake, String.length_toList,
          String.ofList_append, String.ofList_toList, String.append_assoc]
      · obtain ⟨visits, hcut⟩ := h.cut draft room hroom (Nat.lt_of_not_le hle)
        refine ⟨visits, ?_⟩
        rw [andThen_eq_error hcut, List.take_append_of_le_length]
        rw [String.length_toList]
        omega

/-- Pieces written one after the other follow the text they join to. -/
theorem follows_writeAll (pieces : List String) :
    Follows (Draft.writeAll pieces) (.piece (String.join pieces)) := by
  induction pieces with
  | nil => exact follows_pure
  | cons piece rest ih =>
    rw [String.join_cons, ← Transcript.piece_andThen_piece]
    exact (follows_write piece).andThen ih

end

end Drafting

end TaggedValues
