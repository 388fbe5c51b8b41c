import FileCluster.Json.Basic

/-!
The values of number literals.

A literal without fraction and exponent that fits 64 bits is a whole number, `-0` excepted. Every
other literal is a floating-point number, computed in two steps: its digits are gathered into a
whole significand of at most 64 bits, what does not fit any more only moving the decimal point, and
the significand is then multiplied or divided by a power of ten, each time with one rounding.
-/

namespace FileCluster.Json

/-- The parts of a number literal: whole digits, the digits after the point if there is one, and
the exponent's sign and digits if there is one. -/
structure Literal where
  negative : Bool
  whole : List Nat
  fraction : Option (List Nat)
  power : Option (Bool × List Nat)
  deriving DecidableEq, Repr

namespace Literal

/-- A significand and the number of digits that did or did not go into it. -/
structure Gathered where
  significand : Nat
  taken : Nat
  dropped : Nat

/-- Appends digits to a significand up to the first one that would take it beyond 64 bits; that
digit and all after it are dropped. -/
def gather (significand taken : Nat) : List Nat → Gathered
  | [] => ⟨significand, taken, 0⟩
  | d :: ds =>
    if significand * 10 + d ≤ 0xffffffffffffffff then gather (significand * 10 + d) (taken + 1) ds
    else ⟨significand, taken, (d :: ds).length⟩

/-- An exponent from its digits, if it stays below `2 ^ 31`. -/
def exponent? (value : Nat) : List Nat → Option Nat
  | [] => some value
  | d :: ds => if value * 10 + d < 0x80000000 then exponent? (value * 10 + d) ds else none

/-- The power of ten nearest to a floating-point number. -/
def tenTo (n : Nat) : Binary64 := Binary64.ofNat (Nat.pow 10 n)

/-- Divides by a power of ten, in steps of at most `10 ^ 308`. -/
def scaleDown (fuel : Nat) (x : Binary64) (n : Nat) : Binary64 :=
  match fuel with
  | 0 => Binary64.zero
  | fuel + 1 =>
    if n ≤ 308 then x.div (tenTo n)
    else if x.significand = 0 then x
    else scaleDown fuel (x.div (tenTo 308)) (n - 308)

/-- A significand times a power of ten; nothing if that is out of range. -/
def scaled? (significand : Nat) (e : Int) : Option Binary64 :=
  let x := Binary64.ofNat significand
  if e < 0 then some (scaleDown 8 x (-e).toNat)
  else if 308 < e then if x.significand = 0 then some x else none
  else
    let y := x.mul (tenTo e.toNat)
    if y.isFinite then some y else none

/-- The magnitude of a literal as a floating-point number; nothing if that is out of range. -/
def magnitude? (l : Literal) : Option Binary64 :=
  let whole := gather 0 0 l.whole
  let all := gather whole.significand 0 (l.fraction.getD [])
  let point : Int := (whole.dropped : Int) - all.taken
  match l.power with
  | none => scaled? all.significand point
  | some (down, ds) =>
    match exponent? 0 ds with
    | some e => scaled? all.significand (if down then point - e else point + e)
    | none => if down || all.significand = 0 then some Binary64.zero else none

/-- The whole number that a literal denotes, if it has neither fraction nor exponent, its digits fit
64 bits and it is not `-0`. -/
def integer? (l : Literal) : Option Int :=
  let whole := gather 0 0 l.whole
  if l.fraction.isSome || l.power.isSome || whole.dropped ≠ 0 then none
  else if l.negative then if whole.significand = 0 then none else some (-(whole.significand : Int))
  else some whole.significand

/-- A literal as a floating-point number; nothing if it is out of range. -/
def float? (l : Literal) : Option Number :=
  l.magnitude?.map fun x => .float (x.withSign l.negative)

/-- The value of a literal; nothing if it is out of range. -/
def number? (l : Literal) : Option Number :=
  match l.integer? with
  | some n =>
    if h : -0x8000000000000000 ≤ n ∧ n ≤ 0xffffffffffffffff then some (.int n h) else l.float?
  | none => l.float?

end Literal

end FileCluster.Json
