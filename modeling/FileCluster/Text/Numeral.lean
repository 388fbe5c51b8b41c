/-!
Decimal numerals of bounded integers.

A numeral is an optional sign and at least one ASCII digit. It is read from the left, and the first
thing wrong decides the answer: a character that is no digit, or a digit that takes the value out
of bounds.
-/

namespace FileCluster.Text

/-- Why a text is not a numeral of the asked range. -/
inductive NumeralError where
  | empty
  | invalidDigit
  | tooLarge
  | tooSmall
  deriving DecidableEq, Repr

/-- The value of an ASCII digit. -/
def digit? (c : Char) : Option Nat :=
  if '0' ≤ c ∧ c ≤ '9' then some (c.toNat - '0'.toNat) else none

/-- Reads digits after a prefix of value `value`, staying at or below `bound`. -/
def readDigits (bound : Nat) (outOfRange : NumeralError) (value : Nat) :
    List Char → Except NumeralError Nat
  | [] => .ok value
  | c :: cs =>
    match digit? c with
    | none => .error .invalidDigit
    | some d =>
      let next := value * 10 + d
      if next ≤ bound then readDigits bound outOfRange next cs else .error outOfRange

/-- Digits of which there is at least one. -/
def readMagnitude (bound : Nat) (outOfRange : NumeralError) : List Char → Except NumeralError Nat
  | [] => .error .invalidDigit
  | cs => readDigits bound outOfRange 0 cs

/-- A numeral from `0` to `bound`, with an optional plus sign. -/
def readNat (bound : Nat) (s : String) : Except NumeralError Nat :=
  match s.toList with
  | [] => .error .empty
  | '+' :: cs => readMagnitude bound .tooLarge cs
  | cs => readMagnitude bound .tooLarge cs

/-- A numeral from `-least` to `greatest`, with an optional sign. -/
def readInt (least greatest : Nat) (s : String) : Except NumeralError Int :=
  match s.toList with
  | [] => .error .empty
  | '+' :: cs => (readMagnitude greatest .tooLarge cs).map Int.ofNat
  | '-' :: cs => (readMagnitude least .tooSmall cs).map fun n => -(n : Int)
  | cs => (readMagnitude greatest .tooLarge cs).map Int.ofNat

/-- Digits read within a bound stay within it. -/
theorem readDigits_le {bound : Nat} {e : NumeralError} {value n : Nat} {cs : List Char}
    (hv : value ≤ bound) (h : readDigits bound e value cs = .ok n) : n ≤ bound := by
  induction cs generalizing value with
  | nil => simp only [readDigits, Except.ok.injEq] at h; omega
  | cons c cs ih =>
    simp only [readDigits] at h
    split at h
    · cases h
    · split at h
      · rename_i hle; exact ih hle h
      · cases h

/-- A numeral read as a natural number is within its bound. -/
theorem readNat_le {bound n : Nat} {s : String} (h : readNat bound s = .ok n) : n ≤ bound := by
  have magnitude : ∀ cs, readMagnitude bound .tooLarge cs = .ok n → n ≤ bound := by
    intro cs hcs
    cases cs with
    | nil => cases hcs
    | cons c cs => exact readDigits_le (Nat.zero_le _) hcs
  simp only [readNat] at h
  split at h
  · cases h
  · exact magnitude _ h
  · exact magnitude _ h

end FileCluster.Text
