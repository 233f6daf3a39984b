import TaggedValues.Proofs.Render.Limit
import TaggedValues.Proofs.Text.Ascii
import TaggedValues.Render.Steps

/-!
# Rendering into a draft with a bound

Everything that is rendered is in ASCII (`isAscii_transcript`), so the room of a draft, counted in
characters, is a number of bytes. In a draft with room for the whole text, rendering does what it
does without a bound. In a smaller one the first write that does not fit ends the work
(`Fragment.BreaksOff`): it is one of those that the text is made of, a bracket or a comma, or a piece
of a scalar, and what fits of it is the last that is written (`render_eq_draftFull`). So the text is
cut at the byte where the room ends (`render_cut_at_room`).
-/

namespace TaggedValues

open Text

/-! ## What is written is in ASCII -/

/-- The pieces of a scalar are in ASCII. -/
theorem Word.Kind.isAscii_of_mem_pieces {kind : Word.Kind} {piece : String}
    (h : piece ∈ kind.pieces) : IsAscii piece.toList := by
  have hdigits {base n : Nat} (hpos : 1 < base) (hbase : base ≤ 16) :
      IsAscii (String.ofList (Nat.toDigits base n)).toList := by
    rw [String.toList_ofList]
    exact isAscii_toDigits hpos hbase
  match kind with
  | .int value =>
    rw [pieces, Numeral.signedPieces] at h
    split at h
    · rcases List.mem_cons.1 h with rfl | h
      · exact isAscii_of_all rfl
      · rw [List.mem_singleton.1 h]
        exact hdigits (by decide) (by decide)
    · rw [List.mem_singleton.1 h]
      exact hdigits (by decide) (by decide)
  | .closure | .bool true | .bool false =>
    rw [List.mem_singleton.1 h]
    exact isAscii_of_all rfl
  | .pair _ => cases h
  | .invalid bits =>
    rw [pieces, Numeral.hexPieces, List.mem_cons, List.cons_append, List.mem_cons, List.mem_append,
      List.mem_singleton] at h
    rcases h with rfl | rfl | h | rfl
    · exact isAscii_of_all rfl
    · exact isAscii_of_all rfl
    · rw [List.eq_of_mem_replicate h]
      exact isAscii_of_all rfl
    · exact hdigits (by decide) (by decide)

/-- The text of a scalar is in ASCII. -/
theorem Word.Kind.isAscii_text (kind : Word.Kind) : IsAscii kind.text.toList := by
  rw [← kind.join_pieces, String.toList_join]
  exact List.forall_mem_flatMap.2 fun piece h => isAscii_of_mem_pieces h

/-- A sequence of transcripts in ASCII is in ASCII. -/
theorem Text.IsAscii.andThen {t t' : Transcript} (h : IsAscii t.text.toList)
    (h' : IsAscii t'.text.toList) : IsAscii (t.andThen t').text.toList := by
  cases hfault : t.fault? with
  | some fault => rwa [Transcript.andThen_of_some hfault]
  | none =>
    rw [Transcript.text_andThen hfault, String.toList_append]
    exact isAscii_append.2 ⟨h, h'⟩

/-- Rendering writes nothing but ASCII. -/
theorem isAscii_transcript (heap : Heap) (limit : Nat) (word : Word) (depth : Nat) :
    IsAscii (transcript heap limit word depth).text.toList := by
  fun_induction transcript heap limit word depth with
  | case1 | case2 => exact List.forall_mem_nil _
  | case3 word depth offset hkind hdepth first second hpair ihFirst ihSecond =>
    have hentry : IsAscii (Transcript.entry { offset, depth }).text.toList := List.forall_mem_nil _
    have hopen : IsAscii (Transcript.piece "(").text.toList := isAscii_of_all rfl
    have hcomma : IsAscii (Transcript.piece ", ").text.toList := isAscii_of_all rfl
    have hclose : IsAscii (Transcript.piece ")").text.toList := isAscii_of_all rfl
    exact hentry.andThen <| hopen.andThen <| ihFirst.andThen <| hcomma.andThen <|
      ihSecond.andThen hclose
  | case4 word depth hscalar => exact Word.Kind.isAscii_text _

/-! ## The write that does not fit -/

namespace Draft

variable {draft final : Draft} {fault : Fault}

/-- Pieces that are not all written are written up to the first that fails. -/
theorem writeAll_eq_error {pieces : List String} (h : writeAll pieces draft = .error fault final) :
    ∃ front piece back draft', pieces = front ++ piece :: back ∧
      writeAll front draft = .ok () draft' ∧ write piece draft' = .error fault final := by
  induction pieces generalizing draft with
  | nil => cases h
  | cons piece rest ih =>
    rcases Drafting.bind_eq_error h with h | ⟨_, draft', hwrite, h⟩
    · exact ⟨[], piece, rest, draft, rfl, rfl, h⟩
    · obtain ⟨front, last, back, draft'', rfl, hfront, hlast⟩ := ih h
      exact ⟨piece :: front, last, back, draft'', rfl,
        (Drafting.andThen_eq hwrite).trans hfront, hlast⟩

end Draft

namespace Fragment

/-- The work on a stack ends in a write that does not fit. Everything in front of it is written:
some fragments from the top of the stack, and of the fragment on top then the beginning. Nothing is
done behind it, so the draft is left as this write leaves it. -/
inductive BreaksOff (heap : Heap) (limit : Nat) (stack : List Fragment) (draft final : Draft) :
    Prop where
  /-- A bracket or a comma behind an element does not fit. -/
  | text {count : Nat} {piece : String} {below : List Fragment} {draft' : Draft} :
    Steps heap limit stack draft count (.text piece :: below) draft' →
    Draft.write piece draft' = .error .draftFull final →
    BreaksOff heap limit stack draft final
  /-- The bracket of a pair that was just entered does not fit. -/
  | bracket {count depth : Nat} {word : Word} {offset : UInt32} {pair : Word × Word}
    {below : List Fragment} {draft' : Draft} :
    Steps heap limit stack draft count (.value word depth :: below) draft' →
    word.kind = .pair offset → depth < limit → heap.pair? offset = some pair →
    Draft.write "(" { draft' with visits := draft'.visits.push { offset, depth } } =
      .error .draftFull final →
    BreaksOff heap limit stack draft final
  /-- A piece of a scalar does not fit. -/
  | scalar {count depth : Nat} {word : Word} {front back : List String} {piece : String}
    {below : List Fragment} {draft' draft'' : Draft} :
    Steps heap limit stack draft count (.value word depth :: below) draft' →
    word.kind.pieces = front ++ piece :: back → Draft.writeAll front draft' = .ok () draft'' →
    Draft.write piece draft'' = .error .draftFull final →
    BreaksOff heap limit stack draft final

section
variable {heap : Heap} {limit count : Nat} {stack below : List Fragment} {fragment : Fragment}
  {draft draft' final : Draft}

/-- A step that fails because the draft is full ends in a write that does not fit. -/
theorem breaksOff_of_write (hsteps : Steps heap limit stack draft count (fragment :: below) draft')
    (h : write heap limit fragment draft' = .error .draftFull final) :
    BreaksOff heap limit stack draft final := by
  cases fragment with
  | text piece =>
    rcases Drafting.bind_eq_error h with h | ⟨_, _, _, h⟩
    · exact .text hsteps h
    · cases h
  | value word depth =>
    cases hkind : word.kind with
    | pair offset =>
      by_cases hdepth : limit ≤ depth
      · simp only [write, hkind, hdepth, ↓reduceIte] at h
        cases h
      · cases hpair : heap.pair? offset with
        | none =>
          simp only [write, hkind, hdepth, ↓reduceIte, hpair] at h
          cases h
        | some pair =>
          simp only [write, hkind, hdepth, ↓reduceIte, hpair] at h
          rcases Drafting.bind_eq_error h with h | ⟨_, _, henter, h⟩
          · cases h
          cases henter
          rcases Drafting.bind_eq_error h with h | ⟨_, _, _, h⟩
          · exact .bracket hsteps hkind (Nat.lt_of_not_le hdepth) hpair h
          · cases h
    | int _ | closure | bool _ | invalid _ =>
      simp only [write, hkind] at h
      rcases Drafting.bind_eq_error h with h | ⟨_, _, _, h⟩
      · obtain ⟨front, piece, back, draft'', hpieces, hfront, hlast⟩ := Draft.writeAll_eq_error h
        exact .scalar hsteps (by rw [hkind, hpieces]) hfront hlast
      · cases h

/-- Work that ends because the draft is full ends in a write that does not fit. -/
theorem breaksOff_of_writeAll (h : writeAll heap limit stack draft = .error .draftFull final) :
    BreaksOff heap limit stack draft final := by
  obtain ⟨count, hends⟩ := exists_ends heap limit stack draft
  rw [h] at hends
  cases hends with
  | failed hsteps hfailed => exact breaksOff_of_write hsteps hfailed

end

end Fragment

/-- A draft without room for the text of the transcript is filled with the beginning of this text,
and the write that did not fit is the last. -/
theorem render_eq_draftFull {word : Word} {heap : Heap} {limit : DepthLimit} {draft : Draft}
    {room : Nat} (hroom : draft.room = some room)
    (hlt : room < (transcript heap (limit.levels heap.size) word 0).text.length) :
    ∃ visits,
      let written := (transcript heap (limit.levels heap.size) word 0).text.toList.take room
      let final : Draft := { text := draft.text ++ String.ofList written, room := some 0, visits }
      render word heap limit draft = .error .draftFull final ∧
        Fragment.BreaksOff heap (limit.levels heap.size) [.value word 0] draft final := by
  obtain ⟨visits, hcut⟩ :=
    (follows_descend heap (limit.levels heap.size) word 0).cut draft room hroom hlt
  refine ⟨visits, ?_, Fragment.breaksOff_of_writeAll ?_⟩
  · rw [render_eq_descend]
    exact Drafting.andThen_eq_error hcut
  · rw [Fragment.writeAll_value]
    exact Drafting.andThen_eq_error hcut

/-- A draft with room for the bytes of the text that is rendered without a bound takes all of it,
and rendering ends in the same way, whatever its fault. Otherwise the draft is filled with the first
bytes of this text, as many as it has room for, rendering ends because the draft is full, and the
write that did not fit is the last. -/
theorem render_cut_at_room (word : Word) (heap : Heap) (limit : DepthLimit) (text : String)
    (room : Nat) (visits : Array Visit) :
    let whole := render word heap limit {}
    let written := (Drafting.left whole).text
    let start : Draft := { text, room := some room, visits }
    let finish (draft : Draft) : Draft :=
      { text := text ++ draft.text
        room := some (room - written.utf8ByteSize)
        visits := visits ++ draft.visits }
    if written.utf8ByteSize ≤ room then
      render word heap limit start =
        match whole with
        | .ok given draft => .ok given (finish draft)
        | .error fault draft => .error fault (finish draft)
    else
      ∃ final : Draft, render word heap limit start = .error .draftFull final ∧
        final.text.toUTF8 = text.toUTF8 ++ written.toUTF8.extract 0 room ∧ final.room = some 0 ∧
        Fragment.BreaksOff heap (limit.levels heap.size) [.value word 0] start final := by
  intro whole written start finish
  let t := transcript heap (limit.levels heap.size) word 0
  have hascii : IsAscii t.text.toList := isAscii_transcript _ _ _ _
  have hwritten : written = t.text := by
    change (Drafting.left (render word heap limit { text := "", visits := #[] })).text = _
    rw [left_render, String.empty_append]
  have hsize : written.utf8ByteSize = t.text.length := by rw [hwritten, hascii.utf8ByteSize]
  split
  · next hle =>
    have hholds : start.Holds t.text := start.holds_of_room_eq_some rfl (hsize ▸ hle)
    have hfinish : finish (t.appended {}) = t.appended start := by
      simp [finish, start, Transcript.appended, hsize]
    have hwhole : whole = t.outcome word {} :=
      render_eq_outcome (Draft.holds_of_room_eq_none _ rfl _)
    rw [render_eq_outcome hholds, hwhole]
    change t.outcome word start = _
    unfold Transcript.outcome
    cases t.fault? with
    | none => simp only [hfinish]
    | some fault => simp only [hfinish]
  · next hgt =>
    have hlt : room < t.text.length := by rwa [hsize, Nat.not_le] at hgt
    have hroom : start.room = some room := rfl
    obtain ⟨visits', hrender, hbreaks⟩ := render_eq_draftFull hroom hlt
    refine ⟨_, hrender, ?_, rfl, hbreaks⟩
    rw [hwritten, ← hascii.toUTF8_take (Nat.le_of_lt hlt)]
    exact String.toByteArray_append

example : render ⟨1⟩ (.zeroed 2) .byHeap { room := some 3 } =
    .error .draftFull { text := "(0,", room := some 0, visits := #[⟨0, 0⟩] } := by cbv

end TaggedValues
