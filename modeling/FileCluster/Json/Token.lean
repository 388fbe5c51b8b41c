import FileCluster.Json.Literal

/-!
The tokens of JSON text.

`tokens?` splits bytes into tokens and drops the blanks between them. It refuses what is no token
at all: an unknown character, an unfinished string or one with a bare control character, a number
that breaks the grammar. A string that is well written but denotes no text (half of a surrogate
pair, bytes that are not UTF-8) and a number out of range are tokens without a value, because a
reader that skips them has no reason to refuse.
-/

namespace FileCluster.Json

/-- A token of JSON text. -/
inductive Token where
  | openBrace
  | closeBrace
  | openBracket
  | closeBracket
  | colon
  | comma
  | null
  | bool (b : Bool)
  | string (s : Option String)
  | number (n : Option Number)

/-! ## Strings -/

/-- A piece of a string: a byte that stands for itself, or a 16-bit unit written as an escape. -/
inductive Piece where
  | byte (b : UInt8)
  | unit (u : Nat)

/-- Where the reading of a string stands: between pieces, after a backslash, or inside the
hexadecimal digits of a unit. -/
inductive StringState where
  | between
  | escape
  | hex (missing value : Nat)

/-- The byte that a one-letter escape stands for. -/
def escapedByte? (b : UInt8) : Option UInt8 :=
  if b = 0x22 || b = 0x5c || b = 0x2f then some b
  else if b = 0x62 then some 0x08
  else if b = 0x66 then some 0x0c
  else if b = 0x6e then some 0x0a
  else if b = 0x72 then some 0x0d
  else if b = 0x74 then some 0x09
  else none

/-- The value of a hexadecimal digit. -/
def hexValue? (b : UInt8) : Option Nat :=
  if 0x30 ≤ b && b ≤ 0x39 then some (b.toNat - 0x30)
  else if 0x41 ≤ b && b ≤ 0x46 then some (b.toNat - 0x41 + 10)
  else if 0x61 ≤ b && b ≤ 0x66 then some (b.toNat - 0x61 + 10)
  else none

/-- The pieces of a string up to its closing quote, and the bytes after it. -/
def pieces? (done : List Piece) (state : StringState) :
    List UInt8 → Option (List Piece × List UInt8)
  | [] => none
  | b :: rest =>
    match state with
    | .between =>
      if b = 0x22 then some (done.reverse, rest)
      else if b = 0x5c then pieces? done .escape rest
      else if b < 0x20 then none
      else pieces? (.byte b :: done) .between rest
    | .escape =>
      if b = 0x75 then pieces? done (.hex 4 0) rest
      else
        match escapedByte? b with
        | some c => pieces? (.byte c :: done) .between rest
        | none => none
    | .hex missing value =>
      match hexValue? b with
      | none => none
      | some d =>
        let next := value * 16 + d
        if missing ≤ 1 then pieces? (.unit next :: done) .between rest
        else pieces? done (.hex (missing - 1) next) rest

theorem pieces?_length {done : List Piece} {state : StringState} {bytes rest : List UInt8}
    {ps : List Piece} (h : pieces? done state bytes = some (ps, rest)) :
    rest.length < bytes.length := by
  induction bytes generalizing done state with
  | nil => simp [pieces?] at h
  | cons b bs ih =>
    have step : ∀ {done : List Piece} {state : StringState},
        pieces? done state bs = some (ps, rest) → rest.length < (b :: bs).length :=
      fun h => Nat.lt_trans (ih h) (Nat.lt_succ_self _)
    simp only [pieces?] at h
    split at h
    · split at h
      · simp only [Option.some.injEq, Prod.mk.injEq] at h
        simp [← h.2]
      · split at h
        · exact step h
        · split at h
          · cases h
          · exact step h
    · split at h
      · exact step h
      · split at h
        · exact step h
        · cases h
    · split at h
      · cases h
      · split at h
        · exact step h
        · exact step h

/-- The bytes of a character, the last one first, before others. -/
def pushChar (acc : List UInt8) (c : Char) : List UInt8 :=
  (String.utf8EncodeChar c).reverse ++ acc

/-- The bytes that pieces denote, a pair of surrogate units being one character; nothing if a
surrogate stands alone. `half` is a high surrogate whose partner has to follow. -/
def pieceBytes? (acc : List UInt8) (half : Option Nat) : List Piece → Option (List UInt8)
  | [] => if half.isSome then none else some acc.reverse
  | .byte b :: rest => if half.isSome then none else pieceBytes? (b :: acc) none rest
  | .unit u :: rest =>
    match half with
    | some h =>
      if 0xdc00 ≤ u && u ≤ 0xdfff then
        let c := Char.ofNat (0x10000 + (h - 0xd800) * 0x400 + (u - 0xdc00))
        pieceBytes? (pushChar acc c) none rest
      else none
    | none =>
      if 0xd800 ≤ u && u ≤ 0xdbff then pieceBytes? acc (some u) rest
      else if 0xdc00 ≤ u && u ≤ 0xdfff then none
      else pieceBytes? (pushChar acc (Char.ofNat u)) none rest

/-- The text that pieces denote, if they denote one. -/
def pieceText? (ps : List Piece) : Option String :=
  match pieceBytes? [] none ps with
  | some bytes => String.fromUTF8? ⟨bytes.toArray⟩
  | none => none

/-! ## Numbers -/

/-- Splits off the ASCII digits in front. -/
def spanDigits (done : List Nat) : List UInt8 → List Nat × List UInt8
  | [] => (done.reverse, [])
  | b :: rest =>
    if 0x30 ≤ b && b ≤ 0x39 then spanDigits ((b.toNat - 0x30) :: done) rest
    else (done.reverse, b :: rest)

theorem spanDigits_length (done : List Nat) (bytes : List UInt8) :
    (spanDigits done bytes).2.length ≤ bytes.length := by
  induction bytes generalizing done with
  | nil => simp [spanDigits]
  | cons b rest ih =>
    simp only [spanDigits]
    split
    · exact Nat.le_succ_of_le (ih _)
    · exact Nat.le_refl _

/-- The digits after a decimal point, if there is one; at least one digit has to follow it. -/
def fraction? (bytes : List UInt8) : Option (Option (List Nat) × List UInt8) :=
  match bytes with
  | 0x2e :: rest =>
    match spanDigits [] rest with
    | ([], _) => none
    | (ds, rest) => some (some ds, rest)
  | _ => some (none, bytes)

/-- The exponent, if there is one: its sign and at least one digit. -/
def power? (bytes : List UInt8) : Option (Option (Bool × List Nat) × List UInt8) :=
  match bytes with
  | b :: rest =>
    if b = 0x65 || b = 0x45 then
      let (down, rest) : Bool × List UInt8 :=
        match rest with
        | 0x2b :: rest => (false, rest)
        | 0x2d :: rest => (true, rest)
        | _ => (false, rest)
      match spanDigits [] rest with
      | ([], _) => none
      | (ds, rest) => some (some (down, ds), rest)
    else some (none, bytes)
  | [] => some (none, [])

/-- The whole digits of a number: a zero alone, or digits that begin with another one. -/
def whole? (bytes : List UInt8) : Option (List Nat × List UInt8) :=
  match spanDigits [] bytes with
  | ([], _) => none
  | (0 :: _ :: _, _) => none
  | (ds, rest) => some (ds, rest)

/-- An unsigned number literal and what follows it. -/
def literal? (negative : Bool) (bytes : List UInt8) : Option (Literal × List UInt8) :=
  match whole? bytes with
  | none => none
  | some (whole, rest) =>
    match fraction? rest with
    | none => none
    | some (fraction, rest) =>
      match power? rest with
      | none => none
      | some (power, rest) => some (⟨negative, whole, fraction, power⟩, rest)

theorem fraction?_length {bytes rest : List UInt8} {f : Option (List Nat)}
    (h : fraction? bytes = some (f, rest)) : rest.length ≤ bytes.length := by
  unfold fraction? at h
  split at h
  · rename_i after
    have := spanDigits_length [] after
    split at h
    · cases h
    · rename_i he
      simp only [Option.some.injEq, Prod.mk.injEq] at h
      rw [he] at this
      simp only [List.length_cons, ← h.2]
      exact Nat.le_succ_of_le this
  · simp only [Option.some.injEq, Prod.mk.injEq] at h
    simp [h.2]

theorem power?_length {bytes rest : List UInt8} {p : Option (Bool × List Nat)}
    (h : power? bytes = some (p, rest)) : rest.length ≤ bytes.length := by
  unfold power? at h
  split at h
  · rename_i b after
    split at h
    · split at h
      rename_i down digits hsign
      have hdigits : digits.length ≤ after.length := by
        split at hsign
        · cases hsign
          exact Nat.le_succ _
        · cases hsign
          exact Nat.le_succ _
        · cases hsign
          exact Nat.le_refl _
      have hspan := spanDigits_length [] digits
      split at h
      · cases h
      · rename_i he
        cases h
        rw [he] at hspan
        exact Nat.le_succ_of_le (Nat.le_trans hspan hdigits)
    · cases h
      exact Nat.le_refl _
  · cases h
    exact Nat.le_refl _

/-! ## Tokens -/

/-- The blanks of JSON: space, tab, line feed and carriage return. -/
def isBlankByte (b : UInt8) : Bool := b = 0x20 || b = 0x09 || b = 0x0a || b = 0x0d

/-- A word of the grammar, after its first letter. -/
def word? (letters : List UInt8) (t : Token) (bytes : List UInt8) : Option (Token × List UInt8) :=
  match letters, bytes with
  | [], rest => some (t, rest)
  | l :: letters, b :: rest => if l = b then word? letters t rest else none
  | _ :: _, [] => none

/-- A mark that is a token by itself. -/
def mark? (b : UInt8) : Option Token :=
  if b = 0x7b then some .openBrace
  else if b = 0x7d then some .closeBrace
  else if b = 0x5b then some .openBracket
  else if b = 0x5d then some .closeBracket
  else if b = 0x3a then some .colon
  else if b = 0x2c then some .comma
  else none

/-- The letters of a word after the first one, and the token that it is. -/
def wordAfter? (b : UInt8) : Option (List UInt8 × Token) :=
  if b = 0x6e then some ([0x75, 0x6c, 0x6c], .null)
  else if b = 0x74 then some ([0x72, 0x75, 0x65], .bool true)
  else if b = 0x66 then some ([0x61, 0x6c, 0x73, 0x65], .bool false)
  else none

/-- A string or a number that begins with the byte `b`, and what follows it. -/
def scalarFrom? (b : UInt8) (rest : List UInt8) : Option (Token × List UInt8) :=
  if b = 0x22 then
    (pieces? [] .between rest).map fun (ps, rest) => (.string (pieceText? ps), rest)
  else if b = 0x2d then
    (literal? true rest).map fun (l, rest) => (.number l.number?, rest)
  else
    (literal? false (b :: rest)).map fun (l, rest) => (.number l.number?, rest)

/-- The token that begins with the byte `b`, and what follows it. -/
def tokenFrom? (b : UInt8) (rest : List UInt8) : Option (Token × List UInt8) :=
  match mark? b, wordAfter? b with
  | some t, _ => some (t, rest)
  | none, some (letters, t) => word? letters t rest
  | none, none => scalarFrom? b rest

theorem word?_length {letters bytes rest : List UInt8} {t u : Token}
    (h : word? letters t bytes = some (u, rest)) : rest.length ≤ bytes.length := by
  induction letters generalizing bytes with
  | nil =>
    simp only [word?, Option.some.injEq, Prod.mk.injEq] at h
    simp [h.2]
  | cons l ls ih =>
    cases bytes with
    | nil => simp [word?] at h
    | cons b bs =>
      simp only [word?] at h
      split at h
      · exact Nat.le_succ_of_le (ih h)
      · cases h

theorem whole?_lt {bytes rest : List UInt8} {ds : List Nat}
    (h : whole? bytes = some (ds, rest)) : rest.length < bytes.length := by
  have shorter : ∀ (l : List UInt8) (done : List Nat), (spanDigits done l).1.length =
      done.length + (l.length - (spanDigits done l).2.length) := by
    intro l
    induction l with
    | nil => intro done; simp [spanDigits]
    | cons b bs ih =>
      intro done
      simp only [spanDigits]
      split
      · have := spanDigits_length ((b.toNat - 0x30) :: done) bs
        rw [ih]
        simp only [List.length_cons]
        omega
      · simp
  have total := shorter bytes []
  have le := spanDigits_length [] bytes
  unfold whole? at h
  cases hs : spanDigits [] bytes with
  | mk found after =>
    rw [hs] at h total le
    cases found with
    | nil => cases h
    | cons d more =>
      have hr : after = rest := by
        split at h
        · cases h
        · cases h
        · rename_i he
          simp only [Prod.mk.injEq] at he
          simp only [Option.some.injEq, Prod.mk.injEq] at h
          exact he.2.trans h.2
      subst hr
      simp only [List.length_cons, List.length_nil] at total le
      omega

theorem literal?_lt {negative : Bool} {bytes rest : List UInt8} {l : Literal}
    (h : literal? negative bytes = some (l, rest)) : rest.length < bytes.length := by
  unfold literal? at h
  split at h
  · cases h
  · rename_i hw
    split at h
    · cases h
    · rename_i hf
      split at h
      · cases h
      · rename_i hp
        simp only [Option.some.injEq, Prod.mk.injEq] at h
        exact h.2 ▸ Nat.lt_of_le_of_lt (power?_length hp)
          (Nat.lt_of_le_of_lt (fraction?_length hf) (whole?_lt hw))

/-- A token uses up at least its first byte. -/
theorem tokenFrom?_length {b : UInt8} {bytes rest : List UInt8} {t : Token}
    (h : tokenFrom? b bytes = some (t, rest)) : rest.length ≤ bytes.length := by
  unfold tokenFrom? at h
  split at h
  · cases h; exact Nat.le_refl _
  · exact word?_length h
  · unfold scalarFrom? at h
    split at h
    · obtain ⟨⟨ps, r⟩, hp, he⟩ := Option.map_eq_some_iff.1 h
      cases he
      exact Nat.le_of_lt (pieces?_length hp)
    · split at h <;> obtain ⟨⟨l, r⟩, hl, he⟩ := Option.map_eq_some_iff.1 h <;> cases he
      · exact Nat.le_of_lt (literal?_lt hl)
      · exact Nat.le_of_lt_succ (literal?_lt hl)

/-- The tokens of a text, after those already found, the last one first. -/
def tokensFrom? (done : List Token) (bytes : List UInt8) : Option (List Token) :=
  match bytes with
  | [] => some done.reverse
  | b :: rest =>
    if isBlankByte b then tokensFrom? done rest
    else
      match h : tokenFrom? b rest with
      | none => none
      | some (t, after) =>
        have := tokenFrom?_length h
        tokensFrom? (t :: done) after
termination_by bytes.length

/-- The tokens of a text. -/
def tokens? (bytes : List UInt8) : Option (List Token) := tokensFrom? [] bytes

end FileCluster.Json
