import TaggedValues.Proofs.Text.Numeral

/-!
# Texts of one byte per character

In a text of ASCII characters every character is one byte of the UTF-8 form, so a text has as many
bytes as characters (`IsAscii.size_utf8Encode`) and the first bytes are those of the first
characters (`IsAscii.utf8Encode_take`). Numerals are such texts.
-/

namespace TaggedValues.Text

/-- All characters of the text are in ASCII. -/
def IsAscii (text : List Char) : Prop := ∀ c ∈ text, c.toNat < 0x80

section
variable {text rest : List Char} {c : Char} {n : Nat}

/-- A text is in ASCII if a check of each character says so. -/
theorem isAscii_of_all (h : text.all (decide <| ·.toNat < 0x80) = true) : IsAscii text :=
  fun c hc => of_decide_eq_true (List.all_eq_true.1 h c hc)

/-- A text is in ASCII if and only if both its parts are. -/
theorem isAscii_append : IsAscii (text ++ rest) ↔ IsAscii text ∧ IsAscii rest :=
  List.forall_mem_append

/-- The digits that are written for a number are in ASCII. -/
theorem isAscii_toDigits {base : Nat} (hpos : 1 < base) (hbase : base ≤ 16) :
    IsAscii (Nat.toDigits base n) := by
  intro c hc
  have hdigit := Numeral.isSome_digit?_of_mem_toDigits hpos hbase hc
  have := Numeral.toNat_of_isSome_digit? hbase hdigit
  omega

/-- A character of ASCII takes one byte. -/
theorem utf8Size_of_toNat (h : c.toNat < 0x80) : c.utf8Size = 1 := by
  rw [Char.utf8Size_eq_one_iff, UInt32.le_iff_toNat_le]
  exact Nat.le_of_lt_succ h

/-- A text in ASCII has as many bytes as characters. -/
theorem IsAscii.size_utf8Encode (h : IsAscii text) : text.utf8Encode.size = text.length := by
  induction text with
  | nil => rfl
  | cons c rest ih =>
    obtain ⟨hc, hrest⟩ := List.forall_mem_cons.1 h
    rw [List.utf8Encode_cons, ByteArray.size_append, ih hrest, List.utf8Encode_singleton,
      List.size_toByteArray, String.length_utf8EncodeChar, utf8Size_of_toNat hc, List.length_cons,
      Nat.add_comm]

/-- The first bytes of a text in ASCII are those of its first characters. -/
theorem IsAscii.utf8Encode_take (h : IsAscii text) (hn : n ≤ text.length) :
    (text.take n).utf8Encode = text.utf8Encode.extract 0 n := by
  have hfirst : IsAscii (text.take n) := fun c hc => h c (List.mem_of_mem_take hc)
  have hsize : n = (text.take n).utf8Encode.size := by
    rw [hfirst.size_utf8Encode, List.length_take_of_le hn]
  conv => rhs; rw [← List.take_append_drop n text, List.utf8Encode_append]
  exact (ByteArray.extract_append_eq_left hsize).symm

/-- A text in ASCII has as many bytes as characters. -/
theorem IsAscii.utf8ByteSize {text : String} (h : IsAscii text.toList) :
    text.utf8ByteSize = text.length := by
  rw [← String.length_toList, ← h.size_utf8Encode, ← String.toByteArray_ofList,
    String.ofList_toList, String.size_toByteArray]

/-- The bytes of the first characters of a text in ASCII are its first bytes. -/
theorem IsAscii.toUTF8_take {text : String} (h : IsAscii text.toList) (hn : n ≤ text.length) :
    (String.ofList (text.toList.take n)).toUTF8 = text.toUTF8.extract 0 n := by
  rw [String.toUTF8_eq_toByteArray, String.toByteArray_ofList,
    h.utf8Encode_take (String.length_toList ▸ hn), ← String.toByteArray_ofList,
    String.ofList_toList, String.toUTF8_eq_toByteArray]

end

end TaggedValues.Text
