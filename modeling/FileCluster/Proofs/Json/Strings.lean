import FileCluster.Json.Printer
import FileCluster.Json.Token
import FileCluster.Proofs.Text.Utf8

/-!
JSON strings read back as they were written.

A character is written as itself or as an escape (`writtenChar`), and reads back as pieces that
denote its bytes (`pieces?_writtenChar`, `pieceBytes?_piecesOf`). Main statement: the written form
of a string is one token, the string (`scalarFrom?_string`).
-/

namespace FileCluster.Json

open Text

/-- The bytes of a character inside a JSON string. -/
def writtenChar (c : Char) : List UInt8 := encode (appendChar "" c)

/-- The bytes of a JSON string, quotes included. -/
def writtenString (s : String) : List UInt8 :=
  0x22 :: (s.toList.flatMap writtenChar ++ [0x22])

theorem appendChar_eq (acc : String) (c : Char) : appendChar acc c = acc ++ appendChar "" c := by
  unfold appendChar
  split
  · rw [String.empty_append]
  split
  · rw [String.empty_append]
  split
  · rw [← String.toList_inj]
    simp
  split
  · rw [String.empty_append]
  split
  · rw [String.empty_append]
  split
  · rw [String.empty_append]
  split
  · rw [String.empty_append]
  split
  · rw [String.empty_append]
  · rw [← String.toList_inj]
    simp

theorem encode_appendString (acc s : String) :
    encode (appendString acc s) = encode acc ++ writtenString s := by
  have general : ∀ (l : List Char) (acc : String),
      encode (l.foldl appendChar acc) = encode acc ++ l.flatMap writtenChar := by
    intro l
    induction l with
    | nil => simp
    | cons c l ih =>
      intro acc
      rw [List.foldl_cons, ih, appendChar_eq, encode_append, List.flatMap_cons, List.append_assoc]
      rfl
  have hquote : String.utf8EncodeChar '"' = [0x22] := rfl
  unfold appendString writtenString
  rw [encode_push, String.foldl_eq_foldl_toList, general, encode_push, hquote]
  simp

/-! ## Pieces -/

/-- The pieces that a character reads back as. -/
def piecesOf (c : Char) : List Piece :=
  if 0x20 ≤ c.toNat || c = '\n' || c = '\r' || c = '\t' || c.toNat = 8 || c.toNat = 12 then
    (String.utf8EncodeChar c).map .byte
  else [.unit c.toNat]

theorem pieces?_byte (done : List Piece) {b : UInt8} (rest : List UInt8) (hquote : b ≠ 0x22)
    (hslash : b ≠ 0x5c) (hcontrol : 0x20 ≤ b) :
    pieces? done .between (b :: rest) = pieces? (.byte b :: done) .between rest := by
  rw [pieces?]
  simp only [hquote, hslash, if_false]
  rw [if_neg (UInt8.not_lt.mpr hcontrol)]

theorem pieces?_bytes (bs : List UInt8) (done : List Piece) (rest : List UInt8)
    (h : ∀ b ∈ bs, b ≠ 0x22 ∧ b ≠ 0x5c ∧ 0x20 ≤ b) :
    pieces? done .between (bs ++ rest) = pieces? ((bs.map .byte).reverse ++ done) .between rest := by
  induction bs generalizing done with
  | nil => rfl
  | cons b bs ih =>
    obtain ⟨hb, hbs⟩ := List.forall_mem_cons.mp h
    rw [List.cons_append, pieces?_byte done _ hb.1 hb.2.1 hb.2.2, ih _ hbs]
    simp

theorem pieces?_escape (done : List Piece) {b c : UInt8} (rest : List UInt8)
    (h : escapedByte? b = some c) (hunit : b ≠ 0x75) :
    pieces? done .between (0x5c :: b :: rest) = pieces? (.byte c :: done) .between rest := by
  have hquote : (0x5c : UInt8) ≠ 0x22 := by decide
  rw [pieces?]
  simp only [hquote, if_false, if_true]
  rw [pieces?]
  simp only [hunit, if_false, h]

/-- The characters that are written with four hexadecimal digits read back as a unit. -/
theorem pieces?_unit (done : List Piece) {n : Nat} (rest : List UInt8) (h : n < 0x20) :
    pieces? done .between
        (encode (("\\u00".push (hexDigit (n / 16))).push (hexDigit (n % 16))) ++ rest) =
      pieces? (.unit n :: done) .between rest := by
  have hdigit : ∀ d < 16, String.utf8EncodeChar (hexDigit d) = [UInt8.ofNat (hexDigit d).toNat] ∧
      hexValue? (UInt8.ofNat (hexDigit d).toNat) = some d := by
    decide
  obtain ⟨hhigh, hhighv⟩ := hdigit (n / 16) (by omega)
  obtain ⟨hlow, hlowv⟩ := hdigit (n % 16) (by omega)
  have hprefix : encode "\\u00" = [0x5c, 0x75, 0x30, 0x30] := rfl
  have hquote : (0x5c : UInt8) ≠ 0x22 := by decide
  have hzero : hexValue? 0x30 = some 0 := rfl
  rw [encode_push, encode_push, hprefix, hhigh, hlow]
  simp only [List.cons_append, List.nil_append, pieces?, hquote, if_false, if_true, hzero, hhighv,
    hlowv]
  have hvalue : n / 16 * 16 + n % 16 = n := by omega
  simp [hvalue]

/-- What is written for a character reads back as its pieces. -/
theorem pieces?_writtenChar (done : List Piece) (c : Char) (rest : List UInt8) :
    pieces? done .between (writtenChar c ++ rest) =
      pieces? ((piecesOf c).reverse ++ done) .between rest := by
  unfold writtenChar appendChar
  split
  · rename_i hc
    rw [hc]
    exact pieces?_escape done rest rfl (by decide)
  split
  · rename_i hc
    rw [hc]
    exact pieces?_escape done rest rfl (by decide)
  rename_i hquote hslash
  split
  · -- printable: the bytes stand for themselves
    rename_i hprintable
    have hpieces : piecesOf c = (String.utf8EncodeChar c).map .byte := by
      unfold piecesOf
      rw [if_pos (by simp [hprintable])]
    rw [encode_push, encode_empty, List.nil_append, hpieces]
    refine pieces?_bytes _ done rest fun b hb => ?_
    by_cases hascii : c.toNat < 0x80
    · rw [utf8EncodeChar_ascii hascii, List.mem_singleton] at hb
      have hnat : b.toNat = c.toNat := by
        rw [hb, UInt8.toNat_ofNat', Nat.mod_eq_of_lt (by omega)]
      refine ⟨fun he => hquote ?_, fun he => hslash ?_, ?_⟩
      · exact Char.toNat_inj.mp (hnat.symm.trans (by rw [he]; rfl))
      · exact Char.toNat_inj.mp (hnat.symm.trans (by rw [he]; rfl))
      · rw [UInt8.le_iff_toNat_le, hnat]
        exact hprintable
    · have hbig := UInt8.le_iff_toNat_le.mp (le_of_mem_utf8EncodeChar (Nat.not_lt.mp hascii) hb)
      have hbig : 0x80 ≤ b.toNat := hbig
      refine ⟨fun he => ?_, fun he => ?_, ?_⟩
      · rw [he] at hbig
        exact absurd hbig (by decide)
      · rw [he] at hbig
        exact absurd hbig (by decide)
      · rw [UInt8.le_iff_toNat_le]
        exact Nat.le_trans (by decide) hbig
  rename_i hcontrol
  split
  · rename_i hc
    rw [hc]
    exact pieces?_escape done rest rfl (by decide)
  split
  · rename_i hc
    rw [hc]
    exact pieces?_escape done rest rfl (by decide)
  split
  · rename_i hc
    rw [hc]
    exact pieces?_escape done rest rfl (by decide)
  split
  · rename_i hc
    rw [Char.toNat_inj.mp (hc.trans (show 8 = (Char.ofNat 8).toNat from rfl))]
    exact pieces?_escape done rest rfl (by decide)
  split
  · rename_i hc
    rw [Char.toNat_inj.mp (hc.trans (show 12 = (Char.ofNat 12).toNat from rfl))]
    exact pieces?_escape done rest rfl (by decide)
  · rename_i h₁ h₂ h₃ h₄ h₅
    have hpieces : piecesOf c = [.unit c.toNat] := by
      unfold piecesOf
      rw [if_neg (by simp [hcontrol, h₁, h₂, h₃, h₄, h₅])]
    rw [hpieces]
    exact pieces?_unit done rest (Nat.not_le.mp hcontrol)

/-- The pieces of a character denote its bytes. -/
theorem pieceBytes?_piecesOf (acc : List UInt8) (c : Char) (ps : List Piece) :
    pieceBytes? acc none (piecesOf c ++ ps) = pieceBytes? (pushChar acc c) none ps := by
  have bytes : ∀ (bs : List UInt8) (acc : List UInt8),
      pieceBytes? acc none (bs.map .byte ++ ps) = pieceBytes? (bs.reverse ++ acc) none ps := by
    intro bs
    induction bs with
    | nil => simp
    | cons b bs ih =>
      intro acc
      rw [List.map_cons, List.cons_append, pieceBytes?]
      simp only [Option.isSome_none, Bool.false_eq_true, if_false]
      rw [ih]
      simp
  unfold piecesOf
  split
  · exact bytes _ acc
  · rename_i hc
    simp only [Bool.or_eq_true, decide_eq_true_eq, not_or, Nat.not_le] at hc
    obtain ⟨⟨⟨⟨⟨hlt, -⟩, -⟩, -⟩, -⟩, -⟩ := hc
    rw [List.singleton_append, pieceBytes?]
    have hhigh : ¬(0xd800 ≤ c.toNat) := by omega
    have hlow : ¬(0xdc00 ≤ c.toNat) := by omega
    simp [hhigh, hlow]

/-! ## The string as a whole -/

theorem pieces?_string (s : String) (rest : List UInt8) :
    pieces? [] .between (s.toList.flatMap writtenChar ++ 0x22 :: rest) =
      some (s.toList.flatMap piecesOf, rest) := by
  have general : ∀ (l : List Char) (done : List Piece),
      pieces? done .between (l.flatMap writtenChar ++ 0x22 :: rest) =
        some (done.reverse ++ l.flatMap piecesOf, rest) := by
    intro l
    induction l with
    | nil =>
      intro done
      simp [pieces?]
    | cons c l ih =>
      intro done
      rw [List.flatMap_cons, List.append_assoc, pieces?_writtenChar, ih]
      simp
  exact general s.toList []

theorem pieceText?_string (s : String) : pieceText? (s.toList.flatMap piecesOf) = some s := by
  have general : ∀ (l : List Char) (acc : List UInt8),
      pieceBytes? acc none (l.flatMap piecesOf) =
        some (acc.reverse ++ l.flatMap String.utf8EncodeChar) := by
    intro l
    induction l with
    | nil =>
      intro acc
      simp [pieceBytes?]
    | cons c l ih =>
      intro acc
      rw [List.flatMap_cons, pieceBytes?_piecesOf, ih]
      simp [pushChar]
  unfold pieceText?
  rw [general, List.reverse_nil, List.nil_append, ← encode_eq_flatMap]
  exact decode?_encode s

/-- The written form of a string is one token, the string. -/
theorem scalarFrom?_string (s : String) (rest : List UInt8) :
    scalarFrom? 0x22 (s.toList.flatMap writtenChar ++ 0x22 :: rest) =
      some (.string (some s), rest) := by
  unfold scalarFrom?
  rw [if_pos rfl, pieces?_string, Option.map_some]
  exact congrArg (fun text => some (Token.string text, rest)) (pieceText?_string s)

end FileCluster.Json
