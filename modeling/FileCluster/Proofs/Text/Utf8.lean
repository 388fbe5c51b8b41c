import FileCluster.Text.Lossy

/-!
UTF-8 bytes of a text.

`Text.encode` runs over the characters of a text, keeps the ASCII characters as they are and uses
no ASCII byte for any other. So a text can be looked at byte by byte: joining texts joins their
bytes, and the bytes read back as the text (`decode?_encode`, `decodeLossy_encode`).
-/

namespace FileCluster.Text

/-! ## Bytes of a text -/

theorem encode_empty : encode "" = [] := rfl

theorem encode_append (s t : String) : encode (s ++ t) = encode s ++ encode t := by
  unfold encode
  rw [String.toUTF8_eq_toByteArray, String.toByteArray_append, ByteArray.data_append,
    Array.toList_append]
  rfl

theorem encode_ofList (l : List Char) :
    encode (String.ofList l) = l.flatMap String.utf8EncodeChar := by
  unfold encode
  rw [String.toUTF8_eq_toByteArray, String.toByteArray_ofList, List.utf8Encode]
  simp

/-- The bytes of a text are those of its characters. -/
theorem encode_eq_flatMap (s : String) : encode s = s.toList.flatMap String.utf8EncodeChar := by
  rw [← encode_ofList, String.ofList_toList]

theorem encode_push (s : String) (c : Char) :
    encode (s.push c) = encode s ++ String.utf8EncodeChar c := by
  rw [encode_eq_flatMap, encode_eq_flatMap, String.toList_push, List.flatMap_append]
  simp

theorem length_encode (s : String) : (encode s).length = s.utf8ByteSize := by
  simp [encode]

theorem encode_injective {s t : String} (h : encode s = encode t) : s = t := by
  refine String.toByteArray_inj.mp (ByteArray.ext ?_)
  exact Array.toList_inj.mp h

theorem encode_eq_nil_iff {s : String} : encode s = [] ↔ s = "" := by
  refine ⟨fun h => encode_injective (h.trans encode_empty.symm), fun h => ?_⟩
  rw [h, encode_empty]

/-- The bytes of a text read back as the text. -/
theorem decode?_encode (s : String) : decode? (encode s) = some s := by
  unfold decode? encode
  have h : (⟨s.toUTF8.data.toList.toArray⟩ : ByteArray) = s.toByteArray := by
    simp
  rw [h, String.fromUTF8?, dif_pos s.isValidUTF8]
  rfl

theorem encode_of_decode? {bytes : List UInt8} {s : String} (h : decode? bytes = some s) :
    encode s = bytes := by
  unfold decode? String.fromUTF8? at h
  split at h
  · rw [← Option.some.inj h]
    rfl
  · cases h

/-! ## Bytes of a character -/

theorem utf8EncodeChar_ascii {c : Char} (h : c.toNat < 0x80) :
    String.utf8EncodeChar c = [UInt8.ofNat c.toNat] :=
  if_pos (Nat.le_of_lt_succ h)

/-- A character beyond ASCII takes no ASCII byte. -/
theorem le_of_mem_utf8EncodeChar {c : Char} (h : 0x80 ≤ c.toNat) {b : UInt8}
    (hb : b ∈ String.utf8EncodeChar c) : 0x80 ≤ b := by
  have hc : ¬c.val.toNat ≤ 0x7f := Nat.not_le.mpr h
  have big : ∀ n : Nat, 0x80 ≤ n → n < 0x100 → (0x80 : UInt8) ≤ UInt8.ofNat n := by
    intro n hn hlt
    rw [UInt8.le_iff_toNat_le, UInt8.toNat_ofNat', Nat.mod_eq_of_lt hlt]
    exact hn
  unfold String.utf8EncodeChar at hb
  simp only [hc, if_false] at hb
  split at hb
  · simp only [List.mem_cons, List.not_mem_nil, or_false] at hb
    rcases hb with rfl | rfl
    all_goals exact big _ (by omega) (by omega)
  · split at hb
    · simp only [List.mem_cons, List.not_mem_nil, or_false] at hb
      rcases hb with rfl | rfl | rfl
      all_goals exact big _ (by omega) (by omega)
    · simp only [List.mem_cons, List.not_mem_nil, or_false] at hb
      rcases hb with rfl | rfl | rfl | rfl
      all_goals exact big _ (by omega) (by omega)

/-- An ASCII character occurs among the bytes of a text where it occurs in the text. -/
theorem mem_encode_ascii {s : String} {c : Char} (h : c.toNat < 0x80) :
    UInt8.ofNat c.toNat ∈ encode s ↔ c ∈ s.toList := by
  rw [encode_eq_flatMap, List.mem_flatMap]
  constructor
  · rintro ⟨d, hd, hmem⟩
    by_cases hd' : d.toNat < 0x80
    · rw [utf8EncodeChar_ascii hd', List.mem_singleton] at hmem
      have hnat := congrArg UInt8.toNat hmem
      rw [UInt8.toNat_ofNat', UInt8.toNat_ofNat', Nat.mod_eq_of_lt (by omega),
        Nat.mod_eq_of_lt (by omega)] at hnat
      exact Char.toNat_inj.mp hnat ▸ hd
    · have := le_of_mem_utf8EncodeChar (Nat.not_lt.mp hd') hmem
      rw [UInt8.le_iff_toNat_le, UInt8.toNat_ofNat', Nat.mod_eq_of_lt (by omega)] at this
      exact absurd h (Nat.not_lt.mpr this)
  · intro hc
    exact ⟨c, hc, by rw [utf8EncodeChar_ascii h]; exact List.mem_singleton.mpr rfl⟩

/-! ## Bytes shown as text -/

theorem le_ofNat_iff {b : UInt8} {n : Nat} (h : n < 256) : b ≤ UInt8.ofNat n ↔ b.toNat ≤ n := by
  rw [UInt8.le_iff_toNat_le, UInt8.toNat_ofNat', Nat.mod_eq_of_lt h]

theorem ofNat_le_iff {b : UInt8} {n : Nat} (h : n < 256) : UInt8.ofNat n ≤ b ↔ n ≤ b.toNat := by
  rw [UInt8.le_iff_toNat_le, UInt8.toNat_ofNat', Nat.mod_eq_of_lt h]

theorem ofNat_eq_iff {b : UInt8} {n : Nat} (h : n < 256) : UInt8.ofNat n = b ↔ n = b.toNat := by
  rw [← UInt8.toNat_inj, UInt8.toNat_ofNat', Nat.mod_eq_of_lt h]

/-- The ranges of `continuation` for a byte given by its number. -/
theorem continuation_ofNat {n : Nat} (h : n < 256) :
    continuation (UInt8.ofNat n) =
      if 0xc2 ≤ n ∧ n ≤ 0xdf then some (0x80, 0xbf, 0)
      else if n = 0xe0 then some (0xa0, 0xbf, 1)
      else if n = 0xed then some (0x80, 0x9f, 1)
      else if 0xe1 ≤ n ∧ n ≤ 0xef then some (0x80, 0xbf, 1)
      else if n = 0xf0 then some (0x90, 0xbf, 2)
      else if n = 0xf4 then some (0x80, 0x8f, 2)
      else if 0xf1 ≤ n ∧ n ≤ 0xf3 then some (0x80, 0xbf, 2)
      else none := by
  unfold continuation
  simp only [Bool.and_eq_true, decide_eq_true_eq, le_ofNat_iff h, ofNat_le_iff h, ofNat_eq_iff h,
    UInt8.reduceToNat]

/-- A first byte of a character of several bytes. -/
theorem decodeLossyFrom_lead {n further : Nat} {low high : UInt8} (h : n < 256)
    (hn : continuation (UInt8.ofNat n) = some (low, high, further)) (shown : List Char)
    (bs : List UInt8) :
    decodeLossyFrom shown none (UInt8.ofNat n :: bs) =
      decodeLossyFrom shown (some ⟨leadBits (UInt8.ofNat n) further, low, high, further⟩) bs := by
  have hbegin : beginChar (UInt8.ofNat n) =
      some (.inr ⟨leadBits (UInt8.ofNat n) further, low, high, further⟩) := by
    have hlarge : ¬UInt8.ofNat n < 0x80 := by
      intro hlt
      rw [UInt8.lt_iff_toNat_lt, UInt8.toNat_ofNat', Nat.mod_eq_of_lt h] at hlt
      have hlt : n < 0x80 := hlt
      rw [continuation_ofNat h] at hn
      repeat' split at hn
      all_goals first | omega | cases hn
    unfold beginChar
    rw [if_neg hlarge, hn]
    rfl
  rw [decodeLossyFrom]
  simp only [hbegin]

theorem inRange_ofNat {n : Nat} {low high : UInt8} (h : n < 256) (hlow : low.toNat ≤ n)
    (hhigh : n ≤ high.toNat) :
    (decide (low ≤ UInt8.ofNat n) && decide (UInt8.ofNat n ≤ high)) = true := by
  simp [le_ofNat_iff h, ofNat_le_iff h, hlow, hhigh]

/-- The last byte of a character. -/
theorem decodeLossyFrom_last {n code : Nat} {low high : UInt8} (h : n < 256)
    (hlow : low.toNat ≤ n) (hhigh : n ≤ high.toNat) (shown : List Char) (bs : List UInt8) :
    decodeLossyFrom shown (some ⟨code, low, high, 0⟩) (UInt8.ofNat n :: bs) =
      decodeLossyFrom (Char.ofNat (code * 64 + n % 64) :: shown) none bs := by
  rw [decodeLossyFrom]
  simp only [inRange_ofNat h hlow hhigh, if_true, UInt8.toNat_ofNat', Nat.mod_eq_of_lt h]

/-- A byte inside a character. -/
theorem decodeLossyFrom_inner {n code further : Nat} {low high : UInt8} (h : n < 256)
    (hlow : low.toNat ≤ n) (hhigh : n ≤ high.toNat) (shown : List Char) (bs : List UInt8) :
    decodeLossyFrom shown (some ⟨code, low, high, further + 1⟩) (UInt8.ofNat n :: bs) =
      decodeLossyFrom shown (some ⟨code * 64 + n % 64, 0x80, 0xbf, further⟩) bs := by
  rw [decodeLossyFrom]
  simp only [inRange_ofNat h hlow hhigh, if_true, UInt8.toNat_ofNat', Nat.mod_eq_of_lt h]

theorem leadBits_zero {n : Nat} (h : n < 256) : leadBits (UInt8.ofNat n) 0 = n % 32 := by
  rw [leadBits, UInt8.toNat_ofNat', Nat.mod_eq_of_lt h]

theorem leadBits_one {n : Nat} (h : n < 256) : leadBits (UInt8.ofNat n) 1 = n % 16 := by
  rw [leadBits, UInt8.toNat_ofNat', Nat.mod_eq_of_lt h]

theorem leadBits_two {n : Nat} (h : n < 256) : leadBits (UInt8.ofNat n) 2 = n % 8 := by
  rw [leadBits, UInt8.toNat_ofNat', Nat.mod_eq_of_lt h]
  · exact nofun
  · exact nofun

/-- A character of three bytes, given the range that its first byte leaves to the second. -/
theorem decodeLossyFrom_three {a b v : Nat} {low high : UInt8} (ha : a < 256) (hb : b < 256)
    (hlead : continuation (UInt8.ofNat a) = some (low, high, 1)) (hlow : low.toNat ≤ b)
    (hhigh : b ≤ high.toNat) (hv : (a % 16 * 64 + b % 64) * 64 + v % 0x40 = v)
    (shown : List Char) (bs : List UInt8) :
    decodeLossyFrom shown none
        (UInt8.ofNat a :: UInt8.ofNat b :: UInt8.ofNat (v % 0x40 + 0x80) :: bs) =
      decodeLossyFrom (Char.ofNat v :: shown) none bs := by
  rw [decodeLossyFrom_lead ha hlead, decodeLossyFrom_inner hb hlow hhigh,
    decodeLossyFrom_last (by omega) (by simp) (by simp; omega), leadBits_one ha]
  have hlast : (v % 0x40 + 0x80) % 64 = v % 0x40 := by omega
  rw [hlast, hv]

/-- A character of four bytes, given the range that its first byte leaves to the second. -/
theorem decodeLossyFrom_four {a b v : Nat} {low high : UInt8} (ha : a < 256) (hb : b < 256)
    (hlead : continuation (UInt8.ofNat a) = some (low, high, 2)) (hlow : low.toNat ≤ b)
    (hhigh : b ≤ high.toNat)
    (hv : ((a % 8 * 64 + b % 64) * 64 + v / 64 % 0x40) * 64 + v % 0x40 = v)
    (shown : List Char) (bs : List UInt8) :
    decodeLossyFrom shown none
        (UInt8.ofNat a :: UInt8.ofNat b :: UInt8.ofNat (v / 64 % 0x40 + 0x80) ::
          UInt8.ofNat (v % 0x40 + 0x80) :: bs) =
      decodeLossyFrom (Char.ofNat v :: shown) none bs := by
  rw [decodeLossyFrom_lead ha hlead, decodeLossyFrom_inner hb hlow hhigh,
    decodeLossyFrom_inner (by omega) (by simp) (by simp; omega),
    decodeLossyFrom_last (by omega) (by simp) (by simp; omega), leadBits_two ha]
  have hthird : (v / 64 % 0x40 + 0x80) % 64 = v / 64 % 0x40 := by omega
  have hlast : (v % 0x40 + 0x80) % 64 = v % 0x40 := by omega
  rw [hthird, hlast, hv]

/-- The bytes of a character read as the character. -/
theorem decodeLossyFrom_char (c : Char) (shown : List Char) (bs : List UInt8) :
    decodeLossyFrom shown none (String.utf8EncodeChar c ++ bs) =
      decodeLossyFrom (c :: shown) none bs := by
  have hvalid : c.val.toNat < 0xd800 ∨ 0xdfff < c.val.toNat ∧ c.val.toNat < 0x110000 := c.valid
  have hchar : Char.ofNat c.val.toNat = c := Char.ofNat_toNat c
  unfold String.utf8EncodeChar
  generalize c.val.toNat = v at hvalid hchar
  rw [← hchar]
  dsimp only
  split
  · have hbegin : beginChar (UInt8.ofNat v) = some (.inl (Char.ofNat v)) := by
      have hlt : UInt8.ofNat v < 0x80 := by
        rw [UInt8.lt_iff_toNat_lt, UInt8.toNat_ofNat', Nat.mod_eq_of_lt (by omega)]
        exact Nat.lt_succ_of_le (by assumption)
      rw [beginChar, if_pos hlt, UInt8.toNat_ofNat', Nat.mod_eq_of_lt (by omega)]
    rw [List.cons_append, decodeLossyFrom]
    simp only [hbegin, List.nil_append]
  · split
    · have ha : v / 64 % 0x20 + 0xc0 < 256 := by omega
      have hlead := continuation_ofNat ha
      rw [if_pos (by omega)] at hlead
      have hlast : v / 64 % 0x20 + 0xc0 = v / 64 + 0xc0 := by omega
      have hv : (v / 64 % 0x20 + 0xc0) % 32 * 64 + (v % 0x40 + 0x80) % 64 = v := by omega
      rw [List.cons_append, List.cons_append, List.nil_append, decodeLossyFrom_lead ha hlead,
        decodeLossyFrom_last (by omega) (by simp) (by simp; omega), leadBits_zero ha, hv]
    · split
      · have ha : v / 4096 % 0x10 + 0xe0 < 256 := by omega
        have hb : v / 64 % 0x40 + 0x80 < 256 := by omega
        have hlead := continuation_ofNat ha
        rw [if_neg (by omega)] at hlead
        have hv : ((v / 4096 % 0x10 + 0xe0) % 16 * 64 + (v / 64 % 0x40 + 0x80) % 64) * 64 +
            v % 0x40 = v := by omega
        -- the first byte narrows the second one at both ends of the range
        by_cases hzero : v / 4096 = 0
        · rw [if_pos (by omega)] at hlead
          exact decodeLossyFrom_three ha hb hlead (by simp; omega) (by simp; omega) hv shown bs
        · rw [if_neg (by omega)] at hlead
          by_cases hsurrogate : v / 4096 = 13
          · rw [if_pos (by omega)] at hlead
            exact decodeLossyFrom_three ha hb hlead (by simp) (by simp; omega) hv shown bs
          · rw [if_neg (by omega), if_pos (by omega)] at hlead
            exact decodeLossyFrom_three ha hb hlead (by simp) (by simp; omega) hv shown bs
      · have ha : v / 262144 % 0x08 + 0xf0 < 256 := by omega
        have hb : v / 4096 % 0x40 + 0x80 < 256 := by omega
        have hlead := continuation_ofNat ha
        rw [if_neg (by omega), if_neg (by omega), if_neg (by omega), if_neg (by omega)] at hlead
        have hv : (((v / 262144 % 0x08 + 0xf0) % 8 * 64 + (v / 4096 % 0x40 + 0x80) % 64) * 64 +
            v / 64 % 0x40) * 64 + v % 0x40 = v := by omega
        by_cases hzero : v / 262144 = 0
        · rw [if_pos (by omega)] at hlead
          exact decodeLossyFrom_four ha hb hlead (by simp; omega) (by simp; omega) hv shown bs
        · rw [if_neg (by omega)] at hlead
          by_cases hlast : v / 262144 = 4
          · rw [if_pos (by omega)] at hlead
            exact decodeLossyFrom_four ha hb hlead (by simp) (by simp; omega) hv shown bs
          · rw [if_neg (by omega), if_pos (by omega)] at hlead
            exact decodeLossyFrom_four ha hb hlead (by simp) (by simp; omega) hv shown bs

theorem decodeLossyFrom_chars (l : List Char) (shown : List Char) :
    decodeLossyFrom shown none (l.flatMap String.utf8EncodeChar) = shown.reverse ++ l := by
  induction l generalizing shown with
  | nil => simp [decodeLossyFrom]
  | cons c l ih =>
    rw [List.flatMap_cons, decodeLossyFrom_char, ih]
    simp

/-- The bytes of a text are shown as the text. -/
theorem decodeLossy_encode (s : String) : decodeLossy (encode s) = s := by
  rw [decodeLossy, encode_eq_flatMap, decodeLossyFrom_chars]
  exact String.ofList_toList

end FileCluster.Text
