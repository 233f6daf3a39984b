import TaggedValues.Proofs.Render.Unfolding
import TaggedValues.Proofs.Text.Numeral

/-!
# Telling trees by their texts

No brackets or commas stand in the text of a scalar (`Tree.plain_text`), and what a text begins with
tells what sort of tree it is of (`Tree.head?_text`). So the text of a tree ends where a comma or a
closing bracket follows, and not before (`Tree.text_append_inj`), and different trees have different
texts (`Tree.text_injective`). Hence two words that are rendered have the same text exactly if they
stand for the same tree, wherever it lies and whatever it shares (`text_eq_iff_unfolds`).
-/

namespace TaggedValues

open Text Numeral

/-! ## Characters -/

/-- The character is none of those that hold the text of a pair together. -/
def Text.IsPlain (c : Char) : Prop := c ≠ '(' ∧ c ≠ ',' ∧ c ≠ ')'

instance (c : Char) : Decidable (IsPlain c) := inferInstanceAs (Decidable (_ ∧ _))

/-- The text of an element ends in front of the text. -/
def Text.EndsElement (text : List Char) : Prop := ∀ c ∈ text.head?, ¬ IsPlain c

/-- The character by which a text is sorted that begins with the given one: the beginnings of
integers count as one. -/
def Text.sortOf (c : Char) : Char :=
  if c = '-' ∨ (digit? 10 c).isSome then '0' else c

section
variable {base n : Nat} {text text' rest rest' : List Char} {c : Char}

/-- The digits that are written for a number are plain. -/
theorem isPlain_of_mem_toDigits (hpos : 1 < base) (hbase : base ≤ 16)
    (h : c ∈ Nat.toDigits base n) : IsPlain c := by
  have hdigit := isSome_digit?_of_mem_toDigits hpos hbase h
  refine ⟨?_, ?_, ?_⟩ <;>
    · rintro rfl
      simp [digit?, Nat.not_lt.2 hbase] at hdigit

/-- A text is plain if a check of each character says so. -/
theorem isPlain_of_all (h : text.all (decide <| IsPlain ·) = true) : ∀ c ∈ text, IsPlain c := by
  simpa using h

/-- A text of plain characters ends at the first character that is not plain. -/
theorem append_inj_of_isPlain (htext : ∀ c ∈ text, IsPlain c) (htext' : ∀ c ∈ text', IsPlain c)
    (hrest : EndsElement rest) (hrest' : EndsElement rest')
    (h : text ++ rest = text' ++ rest') : text = text' ∧ rest = rest' := by
  have hcut {text rest : List Char} (htext : ∀ c ∈ text, IsPlain c) (hrest : EndsElement rest) :
      (text ++ rest).takeWhile (fun c => decide (IsPlain c)) = text := by
    rw [List.takeWhile_append_of_pos (by simpa using htext)]
    cases rest with
    | nil => exact List.append_nil text
    | cons c rest =>
      rw [List.takeWhile_cons_of_neg (by simpa using hrest c rfl), List.append_nil]
  have htexts : text = text' := by
    rw [← hcut htext hrest, h, hcut htext' hrest']
  subst htexts
  exact ⟨rfl, List.append_cancel_left h⟩

end

namespace Tree

/-! ## Scalars -/

/-- The character by which the text of a tree is sorted. -/
def sort : Tree → Char
  | int _ => '0'
  | closure => '<'
  | bool true => 't'
  | bool false => 'f'
  | invalid _ => 'U'
  | pair _ _ => '('

/-- The text of an integer: a sign, if negative, and the decimal digits. -/
theorem toList_text_int (value : Int32) :
    (int value).text.toList =
      (if value.toInt < 0 then ['-'] else []) ++ Nat.toDigits 10 value.toInt.natAbs := by
  rw [text_int, signedPieces]
  split <;> simp [decimal]

/-- The text of an invalid word: its bits in eight hexadecimal digits. -/
theorem toList_text_invalid (bits : UInt32) :
    (invalid bits).text.toList =
      "Unknown value: 0x".toList ++
        (List.replicate (8 - (Nat.toDigits 16 bits.toNat).length) '0' ++
          Nat.toDigits 16 bits.toNat) := by
  rw [text_invalid, join_hexPieces, List.leftpad]
  simp

/-- The text of a pair: the elements between brackets, with a comma. -/
theorem toList_text_pair (first second : Tree) :
    (pair first second).text.toList =
      '(' :: (first.text.toList ++ (',' :: ' ' :: (second.text.toList ++ [')']))) := by
  simp [text_pair]

/-- What a text begins with tells what sort of tree it is of. -/
theorem head?_text (tree : Tree) : tree.text.toList.head?.map sortOf = some tree.sort := by
  cases tree with
  | int value =>
    rw [toList_text_int]
    split
    · rfl
    · cases hdigits : Nat.toDigits 10 value.toInt.natAbs with
      | nil => exact absurd hdigits Nat.toDigits_ne_nil
      | cons c rest =>
        have hdigit : (digit? 10 c).isSome :=
          isSome_digit?_of_mem_toDigits (by decide) (by decide) (hdigits ▸ List.mem_cons_self)
        simp [sortOf, sort, hdigit]
  | closure => rfl
  | bool value => cases value <;> rfl
  | invalid bits =>
    rw [toList_text_invalid]
    rfl
  | pair first second =>
    rw [toList_text_pair]
    rfl

section
variable {tree tree' : Tree} {rest rest' : List Char}

/-- The text of a scalar is plain. -/
theorem plain_text (h : tree.sort ≠ '(') : ∀ c ∈ tree.text.toList, IsPlain c := by
  cases tree with
  | int value =>
    rw [toList_text_int]
    refine List.forall_mem_append.2 ⟨?_, fun c hc => ?_⟩
    · split <;> exact isPlain_of_all rfl
    · exact isPlain_of_mem_toDigits (by decide) (by decide) hc
  | closure => exact isPlain_of_all rfl
  | bool value => cases value <;> exact isPlain_of_all rfl
  | invalid bits =>
    rw [toList_text_invalid]
    refine List.forall_mem_append.2 ⟨isPlain_of_all rfl, List.forall_mem_append.2 ⟨?_, ?_⟩⟩
    · intro c hc
      rw [List.eq_of_mem_replicate hc]
      decide
    · exact fun c hc => isPlain_of_mem_toDigits (by decide) (by decide) hc
  | pair first second => exact absurd rfl h

/-- Integers with the same text are the same. -/
theorem text_int_injective {value value' : Int32}
    (h : (int value).text.toList = (int value').text.toList) : value = value' := by
  rw [toList_text_int, toList_text_int] at h
  rw [← Int32.toInt_inj]
  split at h <;> split at h
  · have := toDigits_injective (by decide) (by decide) (List.append_cancel_left h)
    omega
  · exact absurd h (minus_cons_ne_toDigits _ _)
  · exact absurd h.symm (minus_cons_ne_toDigits _ _)
  · have := toDigits_injective (by decide) (by decide) (List.append_cancel_left h)
    omega

/-- Invalid words with the same text have the same bits. -/
theorem text_invalid_injective {bits bits' : UInt32}
    (h : (invalid bits).text.toList = (invalid bits').text.toList) : bits = bits' := by
  have hzeros (zeros n : Nat) : Digits 16 (List.replicate zeros '0' ++ Nat.toDigits 16 n) n :=
    (digits_toDigits 16 (by decide) (by decide) n).zeros (by decide) zeros
  rw [toList_text_invalid, toList_text_invalid] at h
  rw [← UInt32.toNat_inj]
  have hdigits := List.append_cancel_left h ▸ hzeros _ bits.toNat
  exact hdigits.unique (by decide) (hzeros _ _)

/-- Texts that begin alike are of trees of one sort. -/
theorem sort_eq_of_append (h : tree.text.toList ++ rest = tree'.text.toList ++ rest') :
    tree.sort = tree'.sort := by
  have hsort (tree : Tree) (rest : List Char) :
      (tree.text.toList ++ rest).head?.map sortOf = some tree.sort := by
    rw [List.head?_append, ← head?_text tree]
    cases htext : tree.text.toList with
    | nil => simpa [htext] using head?_text tree
    | cons => rfl
  exact Option.some.inj ((hsort tree rest).symm.trans (h ▸ hsort tree' rest'))

/-- Different scalars have different texts. -/
theorem eq_of_text_eq (hscalar : tree.sort ≠ '(') (h : tree.text.toList = tree'.text.toList) :
    tree = tree' := by
  have hsort : tree.sort = tree'.sort := sort_eq_of_append (congrArg (· ++ []) h)
  cases tree with
  | int value =>
    cases tree' with
    | int value' => rw [text_int_injective h]
    | closure | pair | invalid => cases hsort
    | bool value' => cases value' <;> cases hsort
  | closure =>
    cases tree' with
    | closure => rfl
    | int | pair | invalid => cases hsort
    | bool value' => cases value' <;> cases hsort
  | bool value =>
    cases tree' with
    | bool value' => cases value <;> cases value' <;> first | rfl | cases hsort
    | int | closure | pair | invalid => cases value <;> cases hsort
  | invalid bits =>
    cases tree' with
    | invalid bits' => rw [text_invalid_injective h]
    | int | closure | pair => cases hsort
    | bool value' => cases value' <;> cases hsort
  | pair first second => exact absurd rfl hscalar

/-- The text of a scalar ends where a comma, a closing bracket or nothing follows. -/
theorem scalar_append_inj (hscalar : tree.sort ≠ '(') (hrest : EndsElement rest)
    (hrest' : EndsElement rest') (h : tree.text.toList ++ rest = tree'.text.toList ++ rest') :
    tree = tree' ∧ rest = rest' := by
  have hscalar' : tree'.sort ≠ '(' := sort_eq_of_append h ▸ hscalar
  obtain ⟨htext, hrests⟩ :=
    append_inj_of_isPlain (plain_text hscalar) (plain_text hscalar') hrest hrest' h
  exact ⟨eq_of_text_eq hscalar htext, hrests⟩

/-! ## Trees -/

/-- The end of a text ends an element. -/
theorem endsElement_nil : EndsElement [] := nofun

/-- A character that is not plain ends an element. -/
theorem endsElement_cons {c : Char} (hc : ¬ IsPlain c) (rest : List Char) :
    EndsElement (c :: rest) := by
  rintro _ ⟨⟩
  exact hc

/-- A tree whose text begins with a bracket is a pair. -/
theorem exists_eq_pair (h : tree.sort = '(') : ∃ first second, tree = pair first second := by
  cases tree with
  | pair first second => exact ⟨first, second, rfl⟩
  | bool value => cases value <;> cases h
  | int | closure | invalid => cases h

/-- The text of a tree ends where a comma, a closing bracket or nothing follows, and tells the
tree. -/
theorem text_append_inj (hrest : EndsElement rest) (hrest' : EndsElement rest')
    (h : tree.text.toList ++ rest = tree'.text.toList ++ rest') : tree = tree' ∧ rest = rest' := by
  induction tree generalizing tree' rest rest' with
  | int | closure | invalid => exact scalar_append_inj (by simp [sort]) hrest hrest' h
  | bool value => exact scalar_append_inj (by cases value <;> decide) hrest hrest' h
  | pair first second ihFirst ihSecond =>
    obtain ⟨first', second', rfl⟩ := exists_eq_pair (sort_eq_of_append h).symm
    simp only [toList_text_pair, List.cons_append, List.append_assoc, List.cons.injEq,
      true_and] at h
    obtain ⟨rfl, hsecond⟩ :=
      ihFirst (endsElement_cons (by decide) _) (endsElement_cons (by decide) _) h
    simp only [List.cons.injEq, true_and] at hsecond
    obtain ⟨rfl, hrests⟩ :=
      ihSecond (endsElement_cons (by decide) _) (endsElement_cons (by decide) _) hsecond
    simp only [List.nil_append, List.cons.injEq, true_and] at hrests
    exact ⟨rfl, hrests⟩

end

/-- Different trees have different texts. -/
theorem text_injective {tree tree' : Tree} (h : tree.text = tree'.text) : tree = tree' := by
  have happend : tree.text.toList ++ [] = tree'.text.toList ++ [] := by rw [h]
  exact (text_append_inj endsElement_nil endsElement_nil happend).1

end Tree

/-! ## Words that are rendered -/

/-- Rendering the word under the limit succeeds on some draft and puts the text behind what the
draft held. -/
def Word.RendersTo (word : Word) (heap : Heap) (limit : DepthLimit) (text : String) : Prop :=
  ∃ (draft draft' : Draft) (given : Word),
    render word heap limit draft = .ok given draft' ∧ draft'.text = draft.text ++ text

section
variable {word : Word} {heap : Heap} {limit : DepthLimit} {text : String}

/-- What is rendered has a transcript without a fault, whose text it is. -/
theorem Word.RendersTo.transcript (h : word.RendersTo heap limit text) :
    (transcript heap (limit.levels heap.size) word 0).fault? = none ∧
      (transcript heap (limit.levels heap.size) word 0).text = text := by
  obtain ⟨draft, draft', given, hrender, htext⟩ := h
  obtain ⟨hfault, rfl⟩ := of_render_eq_ok hrender
  refine ⟨hfault, ?_⟩
  rw [← String.toList_inj] at htext ⊢
  simpa [Transcript.appended] using htext

/-- What is rendered stands for a tree and is its text. -/
theorem Word.RendersTo.exists_unfolds (h : word.RendersTo heap limit text) :
    ∃ tree, heap.Unfolds word tree ∧ tree.text = text := by
  obtain ⟨hfault, htext⟩ := h.transcript
  obtain ⟨tree, htree⟩ := TaggedValues.exists_unfolds hfault
  exact ⟨tree, htree, (htree.text_transcript hfault).symm.trans htext⟩

end

/-- Two words that are rendered, each on its heap and under its limit, have the same text exactly if
they stand for the same tree. And words that stand for the same tree are rendered to the same text
under the limits given by their heaps. -/
theorem text_eq_iff_unfolds (word word' : Word) (heap heap' : Heap) :
    (∀ (limit limit' : DepthLimit) (text text' : String),
      word.RendersTo heap limit text → word'.RendersTo heap' limit' text' →
        (text = text' ↔ ∃ tree, heap.Unfolds word tree ∧ heap'.Unfolds word' tree)) ∧
    ∀ tree, heap.Unfolds word tree → heap'.Unfolds word' tree →
      ∃ text, word.toText heap = .ok text ∧ word'.toText heap' = .ok text := by
  constructor
  · intro limit limit' text text' hrender hrender'
    obtain ⟨tree, htree, rfl⟩ := hrender.exists_unfolds
    obtain ⟨tree', htree', rfl⟩ := hrender'.exists_unfolds
    constructor
    · intro htext
      obtain rfl := Tree.text_injective htext
      exact ⟨tree, htree, htree'⟩
    · rintro ⟨shared, hshared, hshared'⟩
      rw [htree.unique hshared, htree'.unique hshared']
  · intro tree htree htree'
    exact ⟨tree.text, htree.toText_eq, htree'.toText_eq⟩

/-- A pair that holds another twice, and a pair that holds two like it, have the same text. -/
theorem text_eq_iff_unfolds_shared :
    let zeros : List Word := List.replicate 6 ⟨0⟩
    let inner : List Word := [⟨2⟩, ⟨0xFFFFFFFF⟩]
    let heap := (Heap.zeroed 10).fill ([⟨9⟩, ⟨9⟩] ++ zeros ++ inner)
    let heap' := (Heap.zeroed 32).fill (inner ++ zeros ++ inner ++ zeros ++ [⟨1⟩, ⟨9⟩])
    let text := "((1, true), (1, true))"
    Word.RendersTo ⟨1⟩ heap .byHeap text ∧ Word.RendersTo ⟨17⟩ heap' (.fixed 2) text ∧
      ∃ tree, heap.Unfolds ⟨1⟩ tree ∧ heap'.Unfolds ⟨17⟩ tree := by
  intro zeros inner heap heap' text
  have hrender : Word.RendersTo ⟨1⟩ heap .byHeap text := by
    refine ⟨{}, { text, visits := #[⟨0, 0⟩, ⟨8, 1⟩, ⟨8, 1⟩] }, ⟨1⟩, ?_, String.empty_append.symm⟩
    unfold heap zeros inner text
    cbv
  have hrender' : Word.RendersTo ⟨17⟩ heap' (.fixed 2) text := by
    refine ⟨{}, { text, visits := #[⟨16, 0⟩, ⟨0, 1⟩, ⟨8, 1⟩] }, ⟨17⟩, ?_, String.empty_append.symm⟩
    unfold heap' zeros inner text
    cbv
  exact ⟨hrender, hrender',
    ((text_eq_iff_unfolds ⟨1⟩ ⟨17⟩ heap heap').1 _ _ _ _ hrender hrender').1 rfl⟩

end TaggedValues
