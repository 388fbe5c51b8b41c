import FileCluster.Proofs.Text.Utf8

/-!
Texts are ordered as their bytes are.

Texts are compared character by character. The bytes of a character come before those of a later
one whatever follows either (`utf8EncodeChar_append_lt`): a longer code begins with a higher byte,
and in codes of one length the first byte that differs decides. So comparing byte by byte comes to
the same (`encode_lt_encode`).
-/

namespace FileCluster.Text

/-- The first of two bytes, given by their numbers, decides unless they are the same. -/
theorem ofNat_cons_lt {m n : Nat} {bs cs : List UInt8} (hn : n < 256) (hle : m ≤ n)
    (hrest : m = n → bs < cs) : UInt8.ofNat m :: bs < UInt8.ofNat n :: cs := by
  rw [List.cons_lt_cons_iff]
  by_cases heq : m = n
  · exact .inr ⟨congrArg UInt8.ofNat heq, hrest heq⟩
  · refine .inl ?_
    rw [UInt8.lt_iff_toNat_lt, UInt8.toNat_ofNat', UInt8.toNat_ofNat',
      Nat.mod_eq_of_lt (Nat.lt_of_le_of_lt hle hn), Nat.mod_eq_of_lt hn]
    exact Nat.lt_of_le_of_ne hle heq

/-- The bytes of a character come before those of a later one, whatever follows. -/
theorem utf8EncodeChar_append_lt {c d : Char} (h : c < d) (bs cs : List UInt8) :
    String.utf8EncodeChar c ++ bs < String.utf8EncodeChar d ++ cs := by
  have hlt : c.val.toNat < d.val.toNat := h
  have hd : d.val.toNat < 0x110000 := by
    rcases d.valid with hvalid | hvalid
    · exact Nat.lt_trans hvalid (by decide)
    · exact hvalid.2
  unfold String.utf8EncodeChar
  generalize c.val.toNat = v at hlt
  generalize d.val.toNat = w at hlt hd
  dsimp only
  split
  · -- one byte against any number
    split
    · exact ofNat_cons_lt (by omega) (by omega) fun _ => by omega
    split
    · exact ofNat_cons_lt (by omega) (by omega) fun _ => by omega
    split
    · exact ofNat_cons_lt (by omega) (by omega) fun _ => by omega
    · exact ofNat_cons_lt (by omega) (by omega) fun _ => by omega
  rw [if_neg (show ¬w ≤ 0x7f by omega)]
  split
  · -- two bytes against two or more
    split
    · exact ofNat_cons_lt (by omega) (by omega) fun _ =>
        ofNat_cons_lt (by omega) (by omega) fun _ => by omega
    split
    · exact ofNat_cons_lt (by omega) (by omega) fun _ => by omega
    · exact ofNat_cons_lt (by omega) (by omega) fun _ => by omega
  rw [if_neg (show ¬w ≤ 0x7ff by omega)]
  split
  · -- three bytes against three or four
    split
    · exact ofNat_cons_lt (by omega) (by omega) fun _ =>
        ofNat_cons_lt (by omega) (by omega) fun _ =>
          ofNat_cons_lt (by omega) (by omega) fun _ => by omega
    · exact ofNat_cons_lt (by omega) (by omega) fun _ => by omega
  · rw [if_neg (show ¬w ≤ 0xffff by omega)]
    exact ofNat_cons_lt (by omega) (by omega) fun _ =>
      ofNat_cons_lt (by omega) (by omega) fun _ =>
        ofNat_cons_lt (by omega) (by omega) fun _ =>
          ofNat_cons_lt (by omega) (by omega) fun _ => by omega

/-- What stands in front of two lists alike decides nothing. -/
theorem append_lt_append (as : List UInt8) {bs cs : List UInt8} (h : bs < cs) :
    as ++ bs < as ++ cs := by
  induction as with
  | nil => exact h
  | cons a as ih => exact List.cons_lt_cons_iff.mpr (.inr ⟨rfl, ih⟩)

theorem flatMap_utf8EncodeChar_lt {l m : List Char} (h : l < m) :
    l.flatMap String.utf8EncodeChar < m.flatMap String.utf8EncodeChar := by
  induction m generalizing l with
  | nil => exact absurd h (List.not_lt_nil l)
  | cons d m ih =>
    rw [List.flatMap_cons]
    cases l with
    | nil =>
      obtain ⟨b, bs, hbytes⟩ := List.exists_cons_of_ne_nil (String.utf8EncodeChar_ne_nil (c := d))
      rw [hbytes, List.flatMap_nil, List.cons_append]
      exact List.nil_lt_cons b _
    | cons c l =>
      rw [List.flatMap_cons]
      rcases List.cons_lt_cons_iff.mp h with hlt | ⟨rfl, hrest⟩
      · exact utf8EncodeChar_append_lt hlt _ _
      · exact append_lt_append _ (ih hrest)

theorem encode_lt_encode {s t : String} (h : s < t) : encode s < encode t := by
  rw [encode_eq_flatMap, encode_eq_flatMap]
  exact flatMap_utf8EncodeChar_lt (String.lt_iff.mp h)

end FileCluster.Text
