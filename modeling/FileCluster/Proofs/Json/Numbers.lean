import FileCluster.Json.Printer
import FileCluster.Json.Token
import FileCluster.Proofs.Text.Utf8

/-!
Whole numbers read back as they were written.

The digits of a number are those of its decimal form, gathered without loss as long as the number
fits 64 bits. Main statement: the written form of a whole number is one token, the number, wherever
nothing follows that could belong to it (`tokenFrom?_int`).
-/

namespace FileCluster.Json

open Text

/-- Nothing at the front could belong to a number. -/
def Stops (rest : List UInt8) : Prop :=
  ∀ b ∈ rest.head?, ¬(0x30 ≤ b && b ≤ 0x39) = true ∧ b ≠ 0x2e ∧ (b = 0x65 || b = 0x45) = false

theorem stops_nil : Stops [] := nofun

theorem stops_cons {b : UInt8} (rest : List UInt8) (h : b = 0x2c ∨ b = 0x5d ∨ b = 0x7d) :
    Stops (b :: rest) := by
  rintro _ ⟨⟩
  rcases h with rfl | rfl | rfl <;> decide

/-! ## Decimal digits -/

/-- The decimal digits of a natural number, the highest first. -/
def digitsOf (n : Nat) : List Nat := (Nat.toDigits 10 n).map fun c => c.toNat - 0x30

theorem digit_of_mem {n : Nat} {c : Char} (h : c ∈ Nat.toDigits 10 n) :
    0x30 ≤ c.toNat ∧ c.toNat ≤ 0x39 := by
  have hdigit := Nat.isDigit_of_mem_toDigits (by decide) (by decide) h
  simp only [Char.isDigit, Bool.and_eq_true, decide_eq_true_eq] at hdigit
  exact ⟨hdigit.1, hdigit.2⟩

theorem encode_repr (n : Nat) :
    encode n.repr = (Nat.toDigits 10 n).map fun c => UInt8.ofNat c.toNat := by
  have general : ∀ l : List Char, (∀ c ∈ l, c.toNat < 0x80) →
      l.flatMap String.utf8EncodeChar = l.map fun c => UInt8.ofNat c.toNat := by
    intro l hl
    induction l with
    | nil => rfl
    | cons c l ih =>
      obtain ⟨hc, hrest⟩ := List.forall_mem_cons.mp hl
      rw [List.flatMap_cons, utf8EncodeChar_ascii hc, ih hrest]
      rfl
  rw [encode_eq_flatMap, Nat.toList_repr]
  refine general _ fun c hc => ?_
  have := digit_of_mem hc
  omega

/-- A number begins with a zero only if it is zero. -/
theorem digitsOf_cases (n : Nat) :
    digitsOf n = [0] ∨ ∃ d ds, digitsOf n = d :: ds ∧ 0 < d := by
  induction n using Nat.strongRecOn with
  | ind n ih =>
    have digit : ∀ k < 10, k.digitChar.toNat - 0x30 = k := by decide
    unfold digitsOf
    by_cases hn : n < 10
    · rw [Nat.toDigits_of_lt_base hn, List.map_singleton, digit n hn]
      rcases Nat.eq_zero_or_pos n with rfl | hpos
      · exact Or.inl rfl
      · exact Or.inr ⟨n, [], rfl, hpos⟩
    · have hten : 10 ≤ n := Nat.not_lt.mp hn
      rw [Nat.toDigits_of_base_le (by decide) hten, List.map_append]
      rcases ih (n / 10) (by omega) with hzero | ⟨d, ds, hd, hpos⟩
      · -- a quotient that is written as zero is zero
        have hvalue := Nat.ofDigitChars_ten_toDigits (n := n / 10)
        unfold digitsOf at hzero
        obtain ⟨c, hc, hc0⟩ := List.map_eq_singleton_iff.mp hzero
        rw [hc, Nat.ofDigitChars_cons, Nat.ofDigitChars_nil] at hvalue
        have hzero' : c.toNat - '0'.toNat = 0 := hc0
        omega
      · refine Or.inr ⟨d, ds ++ [(n % 10).digitChar.toNat - 0x30], ?_, hpos⟩
        unfold digitsOf at hd
        rw [hd]
        rfl

/-! ## Reading digits -/

theorem spanDigits_digits (l : List Char) (h : ∀ c ∈ l, 0x30 ≤ c.toNat ∧ c.toNat ≤ 0x39)
    {rest : List UInt8} (hrest : Stops rest) (done : List Nat) :
    spanDigits done (l.map (fun c => UInt8.ofNat c.toNat) ++ rest) =
      (done.reverse ++ l.map (fun c => c.toNat - 0x30), rest) := by
  induction l generalizing done with
  | nil =>
    cases rest with
    | nil => simp [spanDigits]
    | cons b rest =>
      have hb := (hrest b rfl).1
      rw [List.map_nil, List.nil_append, spanDigits, if_neg hb]
      simp
  | cons c l ih =>
    obtain ⟨hc, hl⟩ := List.forall_mem_cons.mp h
    have hnat : (UInt8.ofNat c.toNat).toNat = c.toNat := by
      rw [UInt8.toNat_ofNat', Nat.mod_eq_of_lt (by omega)]
    have hdigit : (0x30 ≤ UInt8.ofNat c.toNat && UInt8.ofNat c.toNat ≤ 0x39) = true := by
      rw [Bool.and_eq_true, decide_eq_true_eq, decide_eq_true_eq, UInt8.le_iff_toNat_le,
        UInt8.le_iff_toNat_le, hnat]
      exact hc
    rw [List.map_cons, List.cons_append, spanDigits, if_pos hdigit, ih hl, hnat]
    simp

theorem whole?_repr (n : Nat) {rest : List UInt8} (hrest : Stops rest) :
    whole? (encode n.repr ++ rest) = some (digitsOf n, rest) := by
  have hspan := spanDigits_digits (Nat.toDigits 10 n) (fun c hc => digit_of_mem hc) hrest []
  rw [List.reverse_nil, List.nil_append] at hspan
  unfold whole?
  rw [encode_repr, hspan]
  have hcases := digitsOf_cases n
  unfold digitsOf at hcases ⊢
  rcases hcases with hzero | ⟨d, ds, hd, hpos⟩
  · rw [hzero]
    rfl
  · rw [hd]
    cases d with
    | zero => omega
    | succ d => rfl

theorem literal?_repr (negative : Bool) (n : Nat) {rest : List UInt8} (hrest : Stops rest) :
    literal? negative (encode n.repr ++ rest) = some (⟨negative, digitsOf n, none, none⟩, rest) := by
  have hfraction : fraction? rest = some (none, rest) := by
    unfold fraction?
    split
    · exact absurd rfl (hrest _ rfl).2.1
    · rfl
  have hpower : power? rest = some (none, rest) := by
    unfold power?
    cases rest with
    | nil => rfl
    | cons b rest =>
      dsimp only
      rw [(hrest b rfl).2.2]
      rfl
  unfold literal?
  rw [whole?_repr n hrest]
  dsimp only
  rw [hfraction]
  dsimp only
  rw [hpower]

/-! ## The value of a literal -/

/-- Digits whose number fits 64 bits are all gathered. -/
theorem gather_digits (l : List Char) (significand taken : Nat)
    (h : Nat.ofDigitChars 10 l significand ≤ 0xffffffffffffffff) :
    Literal.gather significand taken (l.map fun c => c.toNat - 0x30) =
      ⟨Nat.ofDigitChars 10 l significand, taken + l.length, 0⟩ := by
  induction l generalizing significand taken with
  | nil => rfl
  | cons c l ih =>
    have hstep : 10 * significand + (c.toNat - '0'.toNat) =
        significand * 10 + (c.toNat - 0x30) := by
      rw [Nat.mul_comm]
      rfl
    rw [Nat.ofDigitChars_cons, hstep] at h ⊢
    have hle : significand * 10 + (c.toNat - 0x30) ≤
        Nat.ofDigitChars 10 l (significand * 10 + (c.toNat - 0x30)) := by
      rw [Nat.ofDigitChars_eq_ofDigitChars_zero]
      have := Nat.le_mul_of_pos_left (significand * 10 + (c.toNat - 0x30))
        (Nat.pow_pos (n := l.length) (show 0 < 10 by decide))
      omega
    rw [List.map_cons, Literal.gather, if_pos (Nat.le_trans hle h), ih _ _ h, List.length_cons]
    congr 1
    omega

theorem gather_digitsOf {n : Nat} (h : n ≤ 0xffffffffffffffff) :
    Literal.gather 0 0 (digitsOf n) = ⟨n, (Nat.toDigits 10 n).length, 0⟩ := by
  have hgather := gather_digits (Nat.toDigits 10 n) 0 0
  rw [Nat.ofDigitChars_ten_toDigits, Nat.zero_add] at hgather
  exact hgather h

theorem number?_natural {n : Nat} (h : -0x8000000000000000 ≤ (n : Int) ∧
    (n : Int) ≤ 0xffffffffffffffff) :
    (⟨false, digitsOf n, none, none⟩ : Literal).number? = some (.int n h) := by
  have hint : (⟨false, digitsOf n, none, none⟩ : Literal).integer? = some (n : Int) := by
    unfold Literal.integer?
    rw [gather_digitsOf (by omega)]
    rfl
  unfold Literal.number?
  rw [hint]
  exact dif_pos h

theorem number?_negative {n : Nat} (h : -0x8000000000000000 ≤ Int.negSucc n ∧
    Int.negSucc n ≤ 0xffffffffffffffff) :
    (⟨true, digitsOf (n + 1), none, none⟩ : Literal).number? = some (.int (Int.negSucc n) h) := by
  have hint : (⟨true, digitsOf (n + 1), none, none⟩ : Literal).integer? =
      some (Int.negSucc n) := by
    unfold Literal.integer?
    rw [gather_digitsOf (by omega)]
    rfl
  unfold Literal.number?
  rw [hint]
  exact dif_pos h

/-- The written form of a whole number is one token, the number. -/
theorem tokenFrom?_int {n : Int} (h : -0x8000000000000000 ≤ n ∧ n ≤ 0xffffffffffffffff)
    {rest : List UInt8} (hrest : Stops rest) :
    ∃ b bs, encode (toString n) = b :: bs ∧ isBlankByte b = false ∧
      tokenFrom? b (bs ++ rest) = some (.number (some (.int n h)), rest) := by
  cases n with
  | ofNat n =>
    obtain ⟨c, cs, hcs⟩ := List.exists_cons_of_ne_nil (Nat.toDigits_ne_nil (n := n) (b := 10))
    have hc := digit_of_mem (n := n) (hcs ▸ List.mem_cons_self)
    have htext : encode (toString (Int.ofNat n)) = encode n.repr := rfl
    have hliteral := literal?_repr false n hrest
    rw [encode_repr, hcs, List.map_cons, List.cons_append] at hliteral
    refine ⟨UInt8.ofNat c.toNat, cs.map fun c => UInt8.ofNat c.toNat, ?_, ?_⟩
    · rw [htext, encode_repr, hcs]
      rfl
    · -- what follows depends only on the first byte being a digit
      have hbyte : ∀ d, 0x30 ≤ d → d ≤ 0x39 → isBlankByte (UInt8.ofNat d) = false ∧
          mark? (UInt8.ofNat d) = none ∧ wordAfter? (UInt8.ofNat d) = none ∧
          UInt8.ofNat d ≠ 0x22 ∧ UInt8.ofNat d ≠ 0x2d := by
        intro d hlow hhigh
        have : ∀ k < 10, isBlankByte (UInt8.ofNat (0x30 + k)) = false ∧
            mark? (UInt8.ofNat (0x30 + k)) = none ∧ wordAfter? (UInt8.ofNat (0x30 + k)) = none ∧
            UInt8.ofNat (0x30 + k) ≠ 0x22 ∧ UInt8.ofNat (0x30 + k) ≠ 0x2d := by decide
        have hk := this (d - 0x30) (by omega)
        rwa [Nat.add_sub_cancel' hlow] at hk
      obtain ⟨hblank, hmark, hword, hquote, hminus⟩ := hbyte c.toNat hc.1 hc.2
      refine ⟨hblank, ?_⟩
      unfold tokenFrom? scalarFrom?
      rw [hmark, hword]
      dsimp only
      rw [if_neg hquote, if_neg hminus, hliteral, Option.map_some, number?_natural h]
      rfl
  | negSucc n =>
    have htext : encode (toString (Int.negSucc n)) = 0x2d :: encode (n + 1).repr := by
      show encode ("-" ++ (n + 1).repr) = _
      rw [encode_append]
      rfl
    refine ⟨0x2d, encode (n + 1).repr, htext, rfl, ?_⟩
    have hscalar : tokenFrom? 0x2d (encode (n + 1).repr ++ rest) =
        scalarFrom? 0x2d (encode (n + 1).repr ++ rest) := rfl
    have hquote : (0x2d : UInt8) ≠ 0x22 := by decide
    rw [hscalar]
    unfold scalarFrom?
    rw [if_neg hquote, if_pos rfl, literal?_repr true (n + 1) hrest, Option.map_some]
    exact congrArg (fun value => some (Token.number value, rest)) (number?_negative h)

end FileCluster.Json
