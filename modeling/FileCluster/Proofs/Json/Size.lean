import FileCluster.Proofs.Json.Numbers
import FileCluster.Proofs.Json.Reading

/-!
How long JSON texts get.

A character takes at most six times its bytes (`length_writtenChar_le`), which is what a control
character takes; a number takes as many as it has digits; and an array takes what its items take and
one byte more for each (`length_written_array_le`). Objects take what their members do, by
`written_object` and `writtenMembers_cons`.
-/

namespace FileCluster.Json

open Text

/-- The length of a text in bytes is that of its bytes. -/
theorem utf8ByteSize_text (v : Json) : v.text.utf8ByteSize = (written v).length :=
  (length_encode v.text).symm

/-! ## Strings -/

theorem length_hexDigit {d : Nat} (h : d < 16) :
    (String.utf8EncodeChar (hexDigit d)).length = 1 := by
  have hdigit : ∀ d < 16, (String.utf8EncodeChar (hexDigit d)).length = 1 := by decide
  exact hdigit d h

/-- What is written for a character takes at most six times the bytes of the character. -/
theorem length_writtenChar_le (c : Char) :
    (writtenChar c).length ≤ 6 * (String.utf8EncodeChar c).length := by
  have hpos : 0 < (String.utf8EncodeChar c).length := by
    rw [String.length_utf8EncodeChar]
    exact c.utf8Size_pos
  have escape : ∀ s : String, (encode ("" ++ s)).length ≤ 6 →
      (encode ("" ++ s)).length ≤ 6 * (String.utf8EncodeChar c).length :=
    fun s hs => Nat.le_trans hs (by omega)
  unfold writtenChar appendChar
  split
  · exact escape _ (by decide)
  split
  · exact escape _ (by decide)
  split
  · rw [encode_push, encode_empty, List.nil_append]
    omega
  split
  · exact escape _ (by decide)
  split
  · exact escape _ (by decide)
  split
  · exact escape _ (by decide)
  split
  · exact escape _ (by decide)
  split
  · exact escape _ (by decide)
  · have hfront : (encode ("" ++ "\\u00")).length = 4 := by decide
    rw [encode_push, encode_push, List.length_append, List.length_append, hfront,
      length_hexDigit (by omega), length_hexDigit (by omega)]
    omega

/-- A JSON string takes at most six bytes for each byte of the text, and its quotes. -/
theorem length_writtenString_le (s : String) :
    (writtenString s).length ≤ 6 * s.utf8ByteSize + 2 := by
  have general : ∀ l : List Char, (l.flatMap writtenChar).length ≤
      6 * (l.flatMap String.utf8EncodeChar).length := by
    intro l
    induction l with
    | nil => exact Nat.le_refl 0
    | cons c l ih =>
      have hc := length_writtenChar_le c
      rw [List.flatMap_cons, List.flatMap_cons, List.length_append, List.length_append]
      omega
  have hs := general s.toList
  rw [← encode_eq_flatMap, length_encode] at hs
  unfold writtenString
  rw [List.length_cons, List.length_append, List.length_singleton]
  omega

/-! ## Numbers -/

/-- A number takes a byte for each digit. -/
theorem length_written_ofUInt64 (n : UInt64) :
    (written (ofUInt64 n)).length = (Nat.toDigits 10 n.toNat).length := by
  have htext : (ofUInt64 n).text = n.toNat.repr := by
    unfold text ofUInt64
    rw [append, String.empty_append]
    rfl
  unfold written
  rw [htext, encode_repr, List.length_map]

theorem length_written_word_le (n : UInt64) : (written (ofUInt64 n)).length ≤ 20 := by
  rw [length_written_ofUInt64, Nat.length_toDigits_le_iff (by decide) (by decide)]
  exact Nat.lt_trans n.toNat_lt (by decide)

theorem length_written_byte_le (b : UInt8) : (written (ofUInt64 b.toUInt64)).length ≤ 3 := by
  rw [length_written_ofUInt64, Nat.length_toDigits_le_iff (by decide) (by decide),
    UInt8.toNat_toUInt64]
  exact Nat.lt_trans b.toNat_lt (by decide)

/-! ## Arrays -/

theorem length_writtenItems_le {items : List Json} {n : Nat}
    (h : ∀ v ∈ items, (written v).length ≤ n) :
    (writtenItems items).length ≤ items.length * (n + 1) := by
  induction items with
  | nil => exact Nat.zero_le _
  | cons v rest ih =>
    obtain ⟨hv, hrest⟩ := List.forall_mem_cons.mp h
    have hih := ih hrest
    rw [writtenItems_cons, List.length_cons, List.length_append, List.length_cons, Nat.succ_mul]
    omega

/-- An array of items that take at most so many bytes each. -/
theorem length_written_array_le {items : List Json} {n : Nat}
    (h : ∀ v ∈ items, (written v).length ≤ n) :
    (written (.array items)).length ≤ items.length * (n + 1) + 2 := by
  cases items with
  | nil =>
    have hempty : (written (.array [])).length = 2 := by decide
    rw [hempty]
    exact Nat.le_add_left 2 _
  | cons v rest =>
    obtain ⟨hv, hrest⟩ := List.forall_mem_cons.mp h
    have hitems := length_writtenItems_le hrest
    rw [written_array, List.length_cons, List.length_append, List.length_append,
      List.length_singleton, List.length_cons, Nat.succ_mul]
    omega

/-! ## Objects -/

theorem writtenMembers_nil : writtenMembers [] = [] := by
  unfold writtenMembers
  rw [appendMembers, encode_empty]

theorem length_written_single (k : String) (v : Json) :
    (written (.object [(k, v)])).length = (writtenString k).length + (written v).length + 3 := by
  rw [written_object, writtenMembers_nil]
  simp only [List.length_cons, List.length_append, List.length_nil]
  omega

end FileCluster.Json
