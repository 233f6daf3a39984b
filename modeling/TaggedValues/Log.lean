import TaggedValues.Event

/-!
# The log

A log shows some of the events of a run. A `Directive` says up to which level the events of a target
are shown, where a target stands for all targets that begin with it; it may ask besides that the
events have a certain field. Of the directives that concern an event the most special one decides:
the one with the longest target, then the one whose field comes last in the alphabet, where no field
comes first, and then the last one of the list (`Directive.deciding_eq_some_iff`). An event that
none concerns is not shown.
-/

namespace TaggedValues.Log

/-- Up to which level the events of a target are shown. -/
structure Directive where
  /-- The beginning of the targets meant, empty for all. -/
  target : String
  /-- The field that the events meant have, where one is asked for. -/
  field : Option String := none
  /-- The least urgent level shown, or `none` where nothing is shown. -/
  threshold : Option Level
deriving DecidableEq, Repr

namespace Directive

/-- Whether the directive speaks of the event. -/
def Concerns (directive : Directive) (event : Event) : Prop :=
  directive.target.toList <+: event.target.toList ∧
    ∀ field ∈ directive.field, field ∈ event.fields

instance (directive : Directive) (event : Event) : Decidable (directive.Concerns event) :=
  inferInstanceAs (Decidable (_ ∧ _))

/-- Whether the directive shows events of the level. -/
def Enables (directive : Directive) (level : Level) : Prop :=
  ∃ threshold ∈ directive.threshold, level.rank ≤ threshold.rank

instance (directive : Directive) (level : Level) : Decidable (directive.Enables level) :=
  match h : directive.threshold with
  | none => isFalse (by simp [Enables, h])
  | some threshold =>
    if hle : level.rank ≤ threshold.rank then isTrue (by simpa [Enables, h] using hle)
    else isFalse (by simpa [Enables, h] using hle)

/-! ## Which directive decides -/

/-- The other directive is at least as special: its target is longer, or just as long and its field
no earlier in the alphabet. -/
def GivesWayTo (directive other : Directive) : Prop :=
  directive.target.length < other.target.length ∨
    (directive.target.length = other.target.length ∧
      directive.field.getD "" ≤ other.field.getD "")

instance (directive other : Directive) : Decidable (directive.GivesWayTo other) :=
  inferInstanceAs (Decidable (_ ∨ _))

/-- The directive decides on the event: it is at least as special as those before it in the list
that concern the event, and more special than those behind it. -/
def Decides (directives : List Directive) (event : Event) (directive : Directive) : Prop :=
  ∃ before behind, directives = before ++ directive :: behind ∧ directive.Concerns event ∧
    (∀ other ∈ before, other.Concerns event → other.GivesWayTo directive) ∧
    ∀ other ∈ behind, other.Concerns event → ¬ directive.GivesWayTo other

/-- The directive that decides on an event, out of a list and behind the one that would decide on
the directives before it. -/
def deciding (event : Event) (before : Option Directive) : List Directive → Option Directive
  | [] => before
  | directive :: rest =>
    if directive.Concerns event ∧ ∀ other ∈ before, other.GivesWayTo directive then
      deciding event (some directive) rest
    else deciding event before rest

section
variable {event : Event} {directive other third head : Directive} {rest : List Directive}

/-- Giving way is transitive. -/
theorem GivesWayTo.trans (h : directive.GivesWayTo other) (h' : other.GivesWayTo third) :
    directive.GivesWayTo third := by
  obtain h | ⟨h, hfield⟩ := h <;> obtain h' | ⟨h', hfield'⟩ := h'
  · exact .inl (by omega)
  · exact .inl (by omega)
  · exact .inl (by omega)
  · exact .inr ⟨by omega, String.le_trans hfield hfield'⟩

/-- Of two directives at least one gives way to the other. -/
theorem GivesWayTo.total (directive other : Directive) :
    directive.GivesWayTo other ∨ other.GivesWayTo directive := by
  simp only [GivesWayTo]
  have := String.le_total (directive.field.getD "") (other.field.getD "")
  grind

/-- Without directives none decides. -/
theorem not_decides_nil : ¬ Decides [] event directive := by
  rintro ⟨before, behind, h, _⟩
  simp at h

/-- The first directive of a list decides if it is more special than those behind it; another one
decides if it does so behind the first, and the first one gives way to it. -/
theorem decides_cons_iff :
    Decides (head :: rest) event directive ↔
      (head = directive ∧ head.Concerns event ∧
        ∀ other ∈ rest, other.Concerns event → ¬ head.GivesWayTo other) ∨
      (Decides rest event directive ∧ (head.Concerns event → head.GivesWayTo directive)) := by
  constructor
  · rintro ⟨before, behind, h, hconcerns, hbefore, hbehind⟩
    cases before with
    | nil =>
      obtain ⟨rfl, rfl⟩ := List.cons.inj h
      exact .inl ⟨rfl, hconcerns, hbehind⟩
    | cons other before =>
      obtain ⟨rfl, rfl⟩ := List.cons.inj h
      exact .inr ⟨⟨before, behind, rfl, hconcerns,
        fun other hother => hbefore other (List.mem_cons_of_mem _ hother), hbehind⟩,
        hbefore head List.mem_cons_self⟩
  · rintro (⟨rfl, hconcerns, hbehind⟩ | ⟨⟨before, behind, rfl, hconcerns, hbefore, hbehind⟩, hhead⟩)
    · exact ⟨[], rest, rfl, hconcerns, by simp, hbehind⟩
    · exact ⟨head :: before, behind, rfl, hconcerns,
        by simpa [or_imp, forall_and] using ⟨hhead, hbefore⟩, hbehind⟩

/-- The fold decides as the directives do, with the one kept so far in front of them: it stays
unless one that concerns the event and does not give way to it comes along. -/
theorem deciding_eq_some_iff_of_before (before : Option Directive) (directives : List Directive) :
    deciding event before directives = some directive ↔
      (Decides directives event directive ∧ ∀ other ∈ before, other.GivesWayTo directive) ∨
      (before = some directive ∧
        ∀ other ∈ directives, other.Concerns event → ¬ directive.GivesWayTo other) := by
  induction directives generalizing before with
  | nil => simp [deciding, not_decides_nil]
  | cons head rest ih =>
    simp only [deciding, decides_cons_iff]
    split
    · rw [ih]
      grind [GivesWayTo.trans, GivesWayTo.total]
    · rw [ih]
      grind [GivesWayTo.trans, GivesWayTo.total]

/-- The directive found is the one that decides. -/
theorem deciding_eq_some_iff {directives : List Directive} :
    deciding event none directives = some directive ↔ Decides directives event directive := by
  simp [deciding_eq_some_iff_of_before]

end

end Directive

/-- Whether the directives show the event. -/
def Shows (directives : List Directive) (event : Event) : Prop :=
  ∃ directive ∈ Directive.deciding event none directives, directive.Enables event.level

instance (directives : List Directive) (event : Event) : Decidable (Shows directives event) :=
  inferInstanceAs (Decidable (∃ directive ∈ _, _))

/-- The events that the directives show. -/
def shown (directives : List Directive) (events : Array Event) : Array Event :=
  events.filter (Shows directives ·)

end TaggedValues.Log
