import TaggedValues.Proofs.Render.Unfolding

/-!
# What a limit on nesting leaves out

Two limits make a difference only from the first pair on that lies too deep for the lower one: there
the transcript under the lower limit stops, and what it has written and entered until then is the
beginning of the other (`Transcript.CutFrom`). A sequence of transcripts that are cut is cut
(`Transcript.CutFrom.andThen`), so the induction on the value has nothing to say but what happens at
a pair (`transcript_cutFrom`). A word that stands for a tree is cut exactly below the height of the
tree (`Heap.Unfolds.shallow_iff`).
-/

namespace TaggedValues

namespace Transcript

/-- The first transcript is the second, or a fault of nesting ends it where it is still the
beginning of the second. -/
def CutFrom (limit : Nat) (t whole : Transcript) : Prop :=
  t = whole ∨ t.fault? = some (.depthExceeded limit) ∧ t.text.toList <+: whole.text.toList ∧
    t.visits <+: whole.visits

section
variable {limit : Nat} {t t' whole whole' : Transcript}

/-- A transcript is cut from itself at any limit, with nothing cut. -/
theorem CutFrom.refl (limit : Nat) (t : Transcript) : CutFrom limit t t := .inl rfl

/-- What is cut is the beginning of the whole. -/
theorem CutFrom.isPrefix (h : CutFrom limit t whole) :
    t.text.toList <+: whole.text.toList ∧ t.visits <+: whole.visits := by
  rcases h with rfl | ⟨-, htext, hvisits⟩
  · exact ⟨List.prefix_refl _, List.prefix_refl _⟩
  · exact ⟨htext, hvisits⟩

/-- Nothing but the fault is the beginning of every transcript. -/
theorem cutFrom_depthExceeded (limit : Nat) (whole : Transcript) :
    CutFrom limit (failure (.depthExceeded limit)) whole :=
  .inr ⟨rfl, List.nil_prefix, List.nil_prefix⟩

/-- A sequence begins with the first of its transcripts. -/
theorem prefix_andThen (t t' : Transcript) :
    t.text.toList <+: (t.andThen t').text.toList ∧ t.visits <+: (t.andThen t').visits := by
  cases hfault : t.fault? with
  | some fault =>
    rw [andThen_of_some hfault]
    exact ⟨List.prefix_refl _, List.prefix_refl _⟩
  | none =>
    rw [andThen_of_none hfault]
    refine ⟨?_, List.prefix_append _ _⟩
    simp only [String.toList_append, List.prefix_append]

/-- A cut in a sequence is a cut in the first transcript, or else one in the second. -/
theorem CutFrom.andThen (h : CutFrom limit t whole) (h' : CutFrom limit t' whole') :
    CutFrom limit (t.andThen t') (whole.andThen whole') := by
  rcases h with rfl | ⟨hfault, htext, hvisits⟩
  · cases hnone : t.fault? with
    | some fault =>
      rw [andThen_of_some hnone, andThen_of_some hnone]
      exact .refl limit t
    | none =>
      rcases h' with rfl | ⟨hfault, htext, hvisits⟩
      · exact .refl limit _
      · refine .inr ⟨?_, ?_, ?_⟩
        · rw [fault?_andThen, hnone, Option.none_or, hfault]
        · rw [text_andThen hnone, text_andThen hnone, String.toList_append, String.toList_append]
          exact (List.prefix_append_right_inj _).2 htext
        · rw [andThen_of_none hnone, andThen_of_none hnone]
          exact (List.prefix_append_right_inj _).2 hvisits
  · -- the second transcript is left out, and the whole goes on behind its first part
    rw [andThen_of_some hfault]
    obtain ⟨htext', hvisits'⟩ := prefix_andThen whole whole'
    exact .inr ⟨hfault, htext.trans htext', hvisits.trans hvisits'⟩

end

end Transcript

section
variable {heap : Heap} {word : Word} {limit limit' depth : Nat}

/-- What comes of a word under a limit is cut from what comes of it under a higher one. -/
theorem transcript_cutFrom (hle : limit ≤ limit') :
    (transcript heap limit word depth).CutFrom limit (transcript heap limit' word depth) := by
  fun_induction transcript heap limit word depth with
  | case1 word depth offset hkind hdepth => exact Transcript.cutFrom_depthExceeded limit _
  | case2 word depth offset hkind hdepth hpair =>
    rw [transcript_of_outside hkind (by omega) hpair]
    exact .refl limit _
  | case3 word depth offset hkind hdepth first second hpair ihFirst ihSecond =>
    rw [transcript_of_pair hkind (by omega) hpair]
    exact (Transcript.CutFrom.refl limit _).andThen <| (Transcript.CutFrom.refl limit _).andThen <|
      ihFirst.andThen <| (Transcript.CutFrom.refl limit _).andThen <|
      ihSecond.andThen (.refl limit _)
  | case4 word depth hscalar =>
    rw [transcript_of_scalar hscalar]
    exact .refl limit _

/-- The tree of a scalar has no height. -/
theorem Word.Kind.height_of_scalar? {kind : Word.Kind} {tree : Tree}
    (h : kind.scalar? = some tree) : tree.height = 0 := by
  cases kind with
  | pair offset => cases h
  | int _ | closure | bool _ | invalid _ =>
    cases h
    rfl

/-- A tree nests no pair too deep exactly when the limit is no less than its height. -/
theorem Heap.Unfolds.shallow_iff {tree : Tree} (h : heap.Unfolds word tree) :
    heap.Shallow limit word ↔ tree.height ≤ limit := by
  refine ⟨fun hshallow => ?_, fun hle => h.shallow.mono hle⟩
  induction h generalizing limit with
  | @scalar word tree hscalar =>
    rw [Word.Kind.height_of_scalar? hscalar]
    exact Nat.zero_le limit
  | pair hkind hpair _ _ ihFirst ihSecond =>
    cases limit with
    | zero => exact absurd hshallow (Heap.not_shallow_zero ⟨_, hkind⟩)
    | succ limit =>
      rw [Heap.shallow_succ_iff hkind hpair] at hshallow
      rw [Tree.height, Nat.add_comm]
      exact Nat.succ_le_succ (Nat.max_le.2 ⟨ihFirst hshallow.1, ihSecond hshallow.2⟩)

/-- A cut transcript that does not end in the fault of the limit is whole, so rendering does the
same under both limits. -/
theorem render_fixed_eq (hle : limit ≤ limit') {text : String} {visits : Array Visit}
    (h : ∀ draft, render word heap (.fixed limit) { text, visits } ≠
      .error (.depthExceeded limit) draft) :
    render word heap (.fixed limit) { text, visits } =
      render word heap (.fixed limit') { text, visits } := by
  have hcut : (transcript heap limit word 0).CutFrom limit (transcript heap limit' word 0) :=
    transcript_cutFrom hle
  rcases hcut with heq | ⟨hfault, -, -⟩
  · rw [render_eq_transcript, render_eq_transcript, DepthLimit.levels, DepthLimit.levels, heq]
  · obtain ⟨draft, hrender⟩ : ∃ draft, render word heap (.fixed limit) { text, visits } = _ :=
      exists_render_eq_error hfault
    exact absurd hrender (h draft)

end

/-- On a draft without a bound, the text and the pairs under a limit are the beginning of those
under a higher one, and if the limit is not what ends it, rendering does the same under both. A word
that reaches neither a pair outside the heap nor one that contains itself stands for a tree, and it
can be rendered exactly under the limits that are no less than the height of this tree. -/
theorem render_limit_cuts_off (word : Word) (heap : Heap) (text : String) (visits : Array Visit) :
    (∀ limit limit', limit ≤ limit' →
      let cut := render word heap (.fixed limit) { text, visits }
      let whole := render word heap (.fixed limit') { text, visits }
      (Drafting.left cut).text.toList <+: (Drafting.left whole).text.toList ∧
        (Drafting.left cut).visits.toList <+: (Drafting.left whole).visits.toList ∧
        ((∀ draft, cut ≠ .error (.depthExceeded limit) draft) → cut = whole)) ∧
      (heap.Closed word → heap.Acyclic word →
        ∃ tree, heap.Unfolds word tree ∧ ∀ limit,
          (∃ draft, render word heap (.fixed limit) { text, visits } = .ok word draft) ↔
            tree.height ≤ limit) := by
  refine ⟨fun limit limit' hle => ?_, fun hclosed hacyclic => ?_⟩
  · have hcut : (transcript heap limit word 0).CutFrom limit (transcript heap limit' word 0) :=
      transcript_cutFrom hle
    obtain ⟨htext, hvisits⟩ := hcut.isPrefix
    refine ⟨?_, ?_, render_fixed_eq hle⟩
    · rw [left_render, left_render, String.toList_append, String.toList_append]
      exact (List.prefix_append_right_inj _).2 htext
    · rw [left_render, left_render, Array.toList_append, Array.toList_append]
      exact (List.prefix_append_right_inj _).2 hvisits
  · obtain ⟨tree, htree⟩ := exists_unfolds (fault?_byHeap_eq_none_iff.2 ⟨hclosed, hacyclic⟩)
    refine ⟨tree, htree, fun limit => ?_⟩
    rw [exists_render_eq_ok_iff, fault?_transcript_eq_none_iff, ← htree.shallow_iff]
    exact and_iff_right hclosed

/-- A pair in a pair is cut at its first element if one level is allowed, and two are enough. -/
theorem render_limit_cuts_off_nested :
    let zeros : List Word := List.replicate 6 ⟨0⟩
    let heap := (Heap.zeroed 10).fill ([⟨9⟩, ⟨6⟩] ++ zeros ++ [⟨2⟩, ⟨4⟩])
    render ⟨1⟩ heap (.fixed 1) {} =
        .error (.depthExceeded 1) { text := "(", visits := #[⟨0, 0⟩] } ∧
      render ⟨1⟩ heap (.fixed 2) {} =
        .ok ⟨1⟩ { text := "((1, 2), 3)", visits := #[⟨0, 0⟩, ⟨8, 1⟩] } ∧
      ∃ tree, heap.Unfolds ⟨1⟩ tree ∧ tree.height = 2 := by
  intro zeros heap
  have hcut : render ⟨1⟩ heap (.fixed 1) {} =
      .error (.depthExceeded 1) { text := "(", visits := #[⟨0, 0⟩] } := by
    unfold heap zeros
    cbv
  have hwhole : render ⟨1⟩ heap (.fixed 2) {} =
      .ok ⟨1⟩ { text := "((1, 2), 3)", visits := #[⟨0, 0⟩, ⟨8, 1⟩] } := by
    unfold heap zeros
    cbv
  have hlevels : DepthLimit.byHeap.levels heap.size = 2 := by
    rw [Heap.size_fill, Heap.size_zeroed]
    rfl
  obtain ⟨hclosed, hacyclic⟩ : heap.Closed ⟨1⟩ ∧ heap.Acyclic ⟨1⟩ := by
    rw [← fault?_byHeap_eq_none_iff, hlevels]
    exact exists_render_eq_ok_iff.1 ⟨_, hwhole⟩
  obtain ⟨tree, htree, hheight⟩ := (render_limit_cuts_off ⟨1⟩ heap "" #[]).2 hclosed hacyclic
  have hle : tree.height ≤ 2 := (hheight 2).1 ⟨_, hwhole⟩
  have hlt : ¬ tree.height ≤ 1 := by
    rw [← hheight 1, hcut]
    rintro ⟨draft, h⟩
    cases h
  exact ⟨hcut, hwhole, tree, htree, by omega⟩

end TaggedValues
