import TaggedValues.Proofs.Image.Manuscript
import TaggedValues.Proofs.Render.Unfolding
import TaggedValues.Proofs.Run.Image
import TaggedValues.Proofs.Word
import TaggedValues.Tree.Placement

/-!
# Printing placed trees

A heap of the words that hold a placed tree stands for it at the root (`Tree.Placement.unfolds`).
So whatever layout and spelling an image gives to these words, and wherever on the heap they place
the pairs, a run of the image prints the text of the tree (`Program.run_placed`), as long as a block
of memory can hold the heap and there is an offset for each of the words
(`Program.run_placed_overflow`). Without an offset of its own, a word is put in the place of one of
the first (`Image.unfolds_zeros`).
-/

namespace TaggedValues

/-- A word that has a text is rendered into it. -/
theorem exists_render_eq_ok {word : Word} {heap : Heap} {text : String}
    (h : word.toText heap = .ok text) :
    ∃ word' draft, render word heap .byHeap {} = .ok word' draft ∧ draft.text = text := by
  unfold Word.toText at h
  split at h
  · next word' draft hrender =>
    cases h
    exact ⟨word', draft, hrender, rfl⟩
  · cases h

namespace Tree.Placement

section
variable {placement : Placement} {tree : Tree} {size : Nat} {words : List Word}

/-- The elements of a placed pair are found at its place. -/
theorem pair?_padded {offset : UInt32} {first second : Placement}
    (hoffset : offset.toNat + 1 < size) (hheld : (pair offset first second).HeldBy words) :
    (Heap.padded size words).pair? offset = some (first.root, second.root) := by
  obtain ⟨hfirst, hsecond, -, -⟩ := hheld
  rw [Heap.pair?_eq_some_iff, Heap.getElem?_padded words (Nat.lt_of_succ_lt hoffset),
    Heap.getElem?_padded words hoffset, hfirst, hsecond]
  exact ⟨rfl, rfl⟩

/-- On a heap of the words that hold a tree, the root of the tree stands for it. -/
theorem unfolds (htree : placement.tree? = some tree) (hheld : placement.HeldBy words)
    (hoffsets : ∀ offset ∈ placement.offsets, offset % 8 = 0 ∧ offset.toNat + 1 < size) :
    (Heap.padded size words).Unfolds placement.root tree := by
  induction placement generalizing tree with
  | leaf word => exact .scalar htree
  | pair offset first second ihFirst ihSecond =>
    obtain ⟨firstTree, hfirst, htree⟩ := Option.bind_eq_some_iff.1 htree
    obtain ⟨secondTree, hsecond, htree⟩ := Option.bind_eq_some_iff.1 htree
    cases htree
    obtain ⟨⟨haligned, hinside⟩, hrest⟩ := List.forall_mem_cons.1 hoffsets
    obtain ⟨hfirstOffsets, hsecondOffsets⟩ := List.forall_mem_append.1 hrest
    exact .pair (Word.kind_ofOffset haligned) (pair?_padded hinside hheld)
      (ihFirst hfirst hheld.2.2.1 hfirstOffsets) (ihSecond hsecond hheld.2.2.2 hsecondOffsets)

end

end Tree.Placement

/-! ## More words than offsets -/

namespace Image

/-- An image whose result is the pair at offset 0, with so many zeros and the integer 1 behind
them. -/
def zeros (count : Nat) : Manuscript :=
  let entry (word : Word) : Entry := { spacers := [.blank ' ' rfl], word, spelling := .decimal 0 }
  { result := { spacers := [], word := ⟨1⟩, spelling := .decimal 0 }
    heap := List.replicate count (entry ⟨0⟩) ++ [entry ⟨2⟩]
    spaced := by simp +contextual [entry, or_imp]
    trailer := []
    remark := none }

/-- The words on the heap of such an image. -/
theorem heap_zeros (count : Nat) :
    (zeros count).image.heap = List.replicate count ⟨0⟩ ++ [⟨2⟩] := by
  simp [zeros, Manuscript.image]

/-- The image has one word for the root and the others for the heap. -/
theorem length_zeros (count : Nat) : (zeros count).image.heap.length = count + 1 := by
  rw [heap_zeros, List.length_append, List.length_replicate]
  rfl

/-- Two zeros are enough for the elements of the pair at offset 0. -/
theorem heldBy_zeros {count : Nat} (hcount : 2 ≤ count) :
    (Tree.Placement.pair 0 (.leaf ⟨0⟩) (.leaf ⟨0⟩)).HeldBy (zeros count).image.heap := by
  have hzero (k : Nat) (hk : k < count) : (zeros count).image.heap.getD k ⟨0⟩ = ⟨0⟩ := by
    rw [heap_zeros, List.getD_eq_getElem?_getD,
      List.getElem?_append_left (by rwa [List.length_replicate]), List.getElem?_replicate,
      if_pos hk, Option.getD_some]
  exact ⟨hzero 0 (Nat.lt_of_lt_of_le Nat.two_pos hcount), hzero 1 hcount, trivial, trivial⟩

/-- When the zeros take all the offsets, the integer takes the place of the first of them. -/
theorem unfolds_zeros {size : Nat} (hsize : UInt32.size ≤ size) :
    ((Heap.zeroed size).fill (zeros UInt32.size).image.heap).Unfolds ⟨1⟩
      (.pair (.int 1) (.int 0)) := by
  have hlength : (List.replicate UInt32.size (⟨0⟩ : Word)).length = UInt32.size :=
    List.length_replicate
  have hheap : UInt32.size ≤ (Heap.zeroed size).size := by rwa [Heap.size_zeroed]
  have hrest : [(⟨2⟩ : Word)].length ≤ UInt32.size := by decide
  have hput := Heap.getElem?_fill_append hlength hheap hrest
  have hsecond : (List.replicate UInt32.size (⟨0⟩ : Word))[1]? = some ⟨0⟩ := by
    rw [List.getElem?_replicate, if_pos (by decide)]
  have hinside : 1 < (Heap.zeroed size).size := Nat.lt_of_lt_of_le (by decide) hheap
  have hpair : ((Heap.zeroed size).fill (zeros UInt32.size).image.heap).pair? 0 =
      some (⟨2⟩, ⟨0⟩) := by
    rw [heap_zeros]
    refine Heap.pair?_eq_some_iff.2 ⟨(hput 0).trans (if_pos (by decide)), (hput 1).trans ?_⟩
    rw [if_neg (by decide), Heap.getElem?_fill _ (Nat.le_of_eq hlength), hlength,
      if_pos ⟨hinside, by decide⟩, hsecond]
  exact .pair rfl hpair (.scalar rfl) (.scalar rfl)

end Image

namespace Program

/-- An image that lays out the words of a placed tree, the root in front, prints the text of the
tree and a line feed, and gives back the root, as long as its words have offsets. -/
theorem run_placed {placement : Tree.Placement} {tree : Tree} {size : Nat} {words : List Word}
    {source : String} {machine : Machine}
    (htree : placement.tree? = some tree) (hfits : placement.Fits size)
    (hheld : placement.HeldBy words) (hlength : words.length ≤ size)
    (hoffsets : words.length ≤ UInt32.size)
    (hlayout : Image.Layout source.toList (placement.root :: words))
    (hsize : Heap.Allocatable size) (houtput : machine.output.Reliable) :
    let image : Image := { result := placement.root, heap := words }
    Image.ofText source = .ok image ∧
      ∃ stopped, (Program.image image).run size .byHeap machine =
          .ok { result := .ok placement.root } stopped ∧
        stopped.output.received = machine.output.received ++ (tree.text ++ "\n").toUTF8 := by
  intro image
  have hlength : image.heap.length ≤ size := hlength
  have hparse : Image.ofText source = .ok image := by
    rw [Image.ofText, Image.words_of_layout hlayout]
  have hunfolds := placement.unfolds htree hheld hfits.2
  rw [← Heap.fill_zeroed size hoffsets] at hunfolds
  obtain ⟨word, draft, hrender, htext⟩ := exists_render_eq_ok hunfolds.toText_eq
  obtain ⟨stopped, hrun, hreceived, -⟩ :=
    run_image_of_render_eq_ok machine hsize hlength houtput hrender
  rw [htext] at hreceived
  exact ⟨hparse, stopped, hrun, hreceived⟩

/-- A pair in hexadecimal with a comment behind it, and its elements, one of them negative. -/
theorem run_placed_commented :
    let source := "0x1 # pair\r\n20 -2"
    let image : Image := { result := ⟨1⟩, heap := [⟨20⟩, ⟨0xFFFFFFFE⟩] }
    Image.ofText source = .ok image ∧
      ∃ stopped, (Program.image image).run 2 .byHeap {} = .ok { result := .ok ⟨1⟩ } stopped ∧
        stopped.output.received = "(10, -1)\n".toUTF8 := by
  intro source image
  have hspelled {token : List Char} {word : Word} (h : Word.ofToken? token = some word) :
      Word.Spelled token word := Word.ofToken?_eq_some_iff.1 h
  have hcomment : Image.Gap ('#' :: " pair\r".toList ++ '\n' :: []) := .comment (by decide) .nil
  have hsource : source.toList = [] ++ "0x1".toList ++
      (" # pair\r\n".toList ++ "20".toList ++ (" ".toList ++ "-2".toList ++ [])) := by decide
  have hlayout : Image.Layout source.toList (⟨1⟩ :: [⟨20⟩, ⟨0xFFFFFFFE⟩]) := by
    rw [hsource]
    exact .word .nil (hspelled (by decide)) (by decide) <|
      .word (.blank (by decide) hcomment) (hspelled (by decide)) (by decide) <|
      .word (.blank (by decide) .nil) (hspelled (by decide)) (by decide) (.gap .nil)
  have htree : (Tree.Placement.pair 0 (.leaf ⟨20⟩) (.leaf ⟨0xFFFFFFFE⟩)).tree? =
      some (.pair (.int 10) (.int (-1))) := by decide
  have htext : (Tree.pair (.int 10) (.int (-1))).text ++ "\n" = "(10, -1)\n" := by decide
  rw [← htext]
  exact run_placed htree (by decide) (by decide) (by decide) (by decide) hlayout (by decide)
    Sink.reliable_default

/-- The heap of an image may be too large for a block of memory, though its words and those of the
tree fit into it. And of the words that fit there may be more than there are offsets, so that an
element of a pair is lost: of two zeros, here, the first. -/
theorem run_placed_overflow :
    (let placement : Tree.Placement := .leaf ⟨2⟩
      let image : Image := { result := ⟨2⟩, heap := [] }
      let size := 0x2000000000000000
      placement.tree? = some (.int 1) ∧ placement.Fits size ∧ placement.HeldBy image.heap ∧
        image.heap.length ≤ size ∧ Image.Layout "2".toList (placement.root :: image.heap) ∧
        ({} : Machine).output.Reliable ∧ Image.ofText "2" = .ok image ∧
        (Program.image image).run size .byHeap {} = .error { words := size } {}) ∧
    let placement : Tree.Placement := .pair 0 (.leaf ⟨0⟩) (.leaf ⟨0⟩)
    let manuscript := Image.zeros UInt32.size
    let image := manuscript.image
    let size := UInt32.size + 1
    placement.tree? = some (.pair (.int 0) (.int 0)) ∧ placement.Fits size ∧
      placement.HeldBy image.heap ∧ image.heap.length ≤ size ∧
      Image.Layout manuscript.source.toList (placement.root :: image.heap) ∧
      Heap.Allocatable size ∧ ({} : Machine).output.Reliable ∧
      ∃ stopped, (Program.image image).run size .byHeap {} = .ok { result := .ok ⟨1⟩ } stopped ∧
        stopped.output.received = "(1, 0)\n".toUTF8 := by
  constructor
  · intro placement image size
    have hspelled : Word.Spelled "2".toList ⟨2⟩ := Word.ofToken?_eq_some_iff.1 (by decide)
    have hlayout : Image.Layout ([] ++ "2".toList ++ []) [⟨2⟩] :=
      .word .nil hspelled (by decide) (.gap .nil)
    have hparse : Image.ofText "2" = .ok image := by decide
    exact ⟨rfl, by decide, trivial, Nat.zero_le _, hlayout, Sink.reliable_default, hparse,
      run_of_not_allocatable _ _ _ (by decide)⟩
  · intro placement manuscript image size
    have hlength : image.heap.length ≤ size := Nat.le_of_eq (Image.length_zeros UInt32.size)
    have hheld : placement.HeldBy image.heap := Image.heldBy_zeros (by decide)
    have hsize : Heap.Allocatable size := by decide
    obtain ⟨word, draft, hrender, htext⟩ :=
      exists_render_eq_ok (Image.unfolds_zeros (Nat.le_succ UInt32.size)).toText_eq
    obtain ⟨stopped, hrun, hreceived, -⟩ :=
      run_image_of_render_eq_ok {} hsize hlength Sink.reliable_default hrender
    refine ⟨rfl, by decide, hheld, hlength, manuscript.layout, hsize, Sink.reliable_default,
      stopped, hrun, ?_⟩
    rw [hreceived, htext]
    decide

end Program

end TaggedValues
