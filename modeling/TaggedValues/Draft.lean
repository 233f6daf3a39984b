import TaggedValues.Fault

/-!
# Drafts

A `Draft` is a text in the making. It may have a bounded room, and it remembers the pairs whose text
was begun in it (`Visit`). Work on a draft (`Drafting`) fails as soon as something does not fit, and
then the draft holds what did.
-/

namespace TaggedValues

/-- A pair entered on the way through a value. -/
structure Visit where
  /-- The offset of the pair. -/
  offset : UInt32
  /-- The number of pairs around it. -/
  depth : Nat
deriving DecidableEq, Repr

/-- A text in the making. Everything written into it is ASCII, so its characters are its bytes. -/
structure Draft where
  /-- What is written so far. -/
  text : String := ""
  /-- How many more characters fit, where there is a bound. -/
  room : Option Nat := none
  /-- The pairs entered so far. -/
  visits : Array Visit := #[]
deriving DecidableEq, Repr

/-- Work on a draft. When it fails, the draft stays as the failure left it. -/
abbrev Drafting := EStateM Fault Draft

/-- The draft that a work leaves, whether it succeeds or fails. -/
def Drafting.left {α : Type} : EStateM.Result Fault Draft α → Draft
  | .ok _ draft | .error _ draft => draft

/-- A sequence of two works succeeds when both do. -/
theorem Drafting.bind_eq_ok {α β : Type} {x : Drafting α} {f : α → Drafting β}
    {draft draft'' : Draft} {b : β} (h : (x >>= f) draft = .ok b draft'') :
    ∃ a draft', x draft = .ok a draft' ∧ f a draft' = .ok b draft'' := by
  change EStateM.bind x f draft = _ at h
  unfold EStateM.bind at h
  split at h
  · rename_i a draft' hx
    exact ⟨a, draft', hx, h⟩
  · cases h

/-- A sequence of two works fails in the first or in the second. -/
theorem Drafting.bind_eq_error {α β : Type} {x : Drafting α} {f : α → Drafting β}
    {draft draft'' : Draft} {fault : Fault} (h : (x >>= f) draft = .error fault draft'') :
    x draft = .error fault draft'' ∨
      ∃ a draft', x draft = .ok a draft' ∧ f a draft' = .error fault draft'' := by
  change EStateM.bind x f draft = _ at h
  unfold EStateM.bind at h
  split at h
  · rename_i a draft' hx
    exact .inr ⟨a, draft', hx, h⟩
  · rename_i fault' draft' hx
    cases h
    exact .inl hx

namespace Draft

/-- Writes a piece of text. Of a piece that does not fit, the beginning that does is kept, and the
work fails. -/
def write (piece : String) : Drafting Unit := fun draft =>
  match draft with
  | { text, room := none, visits } => .ok () { text := text ++ piece, room := none, visits }
  | { text, room := some room, visits } =>
    if piece.length ≤ room then
      .ok () { text := text ++ piece, room := some (room - piece.length), visits }
    else
      let kept := String.ofList (piece.toList.take room)
      .error .draftFull { text := text ++ kept, room := some 0, visits }

/-- Writes pieces one after the other. -/
def writeAll : List String → Drafting Unit
  | [] => pure ()
  | piece :: rest => do
    write piece
    writeAll rest

/-- Remembers that a pair was entered. -/
def enter (visit : Visit) : Drafting Unit :=
  modify fun draft => { draft with visits := draft.visits.push visit }

end Draft

end TaggedValues
