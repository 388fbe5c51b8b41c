/-!
Bytes shown as text.

`decodeLossy` reads bytes as UTF-8 and shows every maximal piece that is not the beginning of a
character as U+FFFD. `decode?` reads strictly and refuses such bytes.
-/

namespace FileCluster.Text

/-- The bytes that may follow the first byte of a character of several bytes: the range of the
second byte, and how many further ones there are. -/
def continuation (b : UInt8) : Option (UInt8 × UInt8 × Nat) :=
  if 0xc2 ≤ b && b ≤ 0xdf then some (0x80, 0xbf, 0)
  else if b = 0xe0 then some (0xa0, 0xbf, 1)
  else if b = 0xed then some (0x80, 0x9f, 1)
  else if 0xe1 ≤ b && b ≤ 0xef then some (0x80, 0xbf, 1)
  else if b = 0xf0 then some (0x90, 0xbf, 2)
  else if b = 0xf4 then some (0x80, 0x8f, 2)
  else if 0xf1 ≤ b && b ≤ 0xf3 then some (0x80, 0xbf, 2)
  else none

/-- What is known of a character whose first bytes have been read: its code point so far, the
range of the next byte, and how many bytes come after that one. -/
structure PartialChar where
  code : Nat
  low : UInt8
  high : UInt8
  further : Nat

/-- The payload bits of a leading byte of a character of `further + 2` bytes. -/
def leadBits (b : UInt8) (further : Nat) : Nat :=
  match further with
  | 0 => b.toNat % 32
  | 1 => b.toNat % 16
  | _ => b.toNat % 8

/-- A byte read where a character may begin. -/
def beginChar (b : UInt8) : Option (Char ⊕ PartialChar) :=
  if b < 0x80 then some (.inl (Char.ofNat b.toNat))
  else (continuation b).map fun (low, high, further) =>
    .inr ⟨leadBits b further, low, high, further⟩

/-- Reads the bytes one by one, `shown` holding the characters so far, the last one first. -/
def decodeLossyFrom (shown : List Char) (pending : Option PartialChar) : List UInt8 → List Char
  | [] => (if pending.isSome then Char.ofNat 0xfffd :: shown else shown).reverse
  | b :: bs =>
    let fresh (shown : List Char) : List Char :=
      match beginChar b with
      | none => decodeLossyFrom (Char.ofNat 0xfffd :: shown) none bs
      | some (.inl c) => decodeLossyFrom (c :: shown) none bs
      | some (.inr p) => decodeLossyFrom shown (some p) bs
    match pending with
    | none => fresh shown
    | some p =>
      if p.low ≤ b && b ≤ p.high then
        let code := p.code * 64 + b.toNat % 64
        match p.further with
        | 0 => decodeLossyFrom (Char.ofNat code :: shown) none bs
        | further + 1 => decodeLossyFrom shown (some ⟨code, 0x80, 0xbf, further⟩) bs
      else fresh (Char.ofNat 0xfffd :: shown)

/-- Bytes as text, what is not UTF-8 being shown as U+FFFD. -/
def decodeLossy (bytes : List UInt8) : String :=
  String.ofList (decodeLossyFrom [] none bytes)

/-- Bytes as text, if they are UTF-8. -/
def decode? (bytes : List UInt8) : Option String :=
  String.fromUTF8? ⟨bytes.toArray⟩

/-- The UTF-8 bytes of a text. -/
def encode (s : String) : List UInt8 := s.toUTF8.data.toList

end FileCluster.Text
