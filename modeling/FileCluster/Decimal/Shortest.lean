import FileCluster.Decimal.Binary64

/-!
The shortest decimal that reads back as a given floating-point number.

The reals that round to a number `m * 2 ^ q` form an interval around it, with its ends if `m` is
even. For one digit, two digits and so on, the two neighbours of the number on the decimal grid of
that many digits are tried; the first grid with a neighbour inside the interval decides, and of two
neighbours inside the nearer one, or the even one if they are equally near.
-/

namespace FileCluster.Decimal

/-- A positive decimal `0.d₁d₂… * 10 ^ point`, with the digits as one whole number. -/
structure Digits where
  digits : Nat
  count : Nat
  point : Int
  deriving DecidableEq, Repr

/-- The least exponent above a ratio below one, counting down from `point`. -/
def pointBelow (fuel : Nat) (num den : Nat) (point : Int) : Int :=
  match fuel with
  | 0 => point
  | fuel + 1 => if 10 * num < den then pointBelow fuel (10 * num) den (point - 1) else point

/-- The exponent `p` with `10 ^ (p - 1) ≤ num / den < 10 ^ p`, for a positive ratio. -/
def pointOf (num den : Nat) : Int :=
  if den ≤ num then (Nat.toDigits 10 (num / den)).length else pointBelow 400 num den 0

/-- The interval of a finite positive number: its ends and itself, all times one denominator,
and whether the ends belong to it. -/
structure Interval where
  low : Nat
  mid : Nat
  high : Nat
  den : Nat
  closed : Bool

/-- The reals that round to a finite positive number. -/
def Interval.of (x : Binary64) : Interval :=
  let m := x.significand
  let below := if m = Binary64.leadingBit ∧ -1074 < x.exponent then 4 * m - 1 else 4 * m - 2
  let e := x.exponent - 2
  let up := if 0 ≤ e then 1 <<< e.toNat else 1
  let den := if 0 ≤ e then 1 else 1 <<< (-e).toNat
  ⟨below * up, 4 * m * up, (4 * m + 2) * up, den, m % 2 = 0⟩

/-- Whether `d` steps of a grid lie in the interval; the interval's numbers are in units of
`1 / scale` steps. -/
def Interval.holds (i : Interval) (scale d : Nat) : Bool :=
  if i.closed then i.low ≤ d * scale && d * scale ≤ i.high
  else i.low < d * scale && d * scale < i.high

/-- The best decimal of `count` digits inside the interval, if there is one. -/
def Interval.onGrid? (i : Interval) (point : Int) (count : Nat) : Option Digits :=
  let shift := (count : Int) - point
  let factor := if 0 ≤ shift then Nat.pow 10 shift.toNat else 1
  let scale := i.den * (if 0 ≤ shift then 1 else Nat.pow 10 (-shift).toNat)
  let j : Interval :=
    { i with low := i.low * factor, mid := i.mid * factor, high := i.high * factor }
  let down := j.mid / scale
  let rest := j.mid % scale
  let up := down + 1
  match j.holds scale down, j.holds scale up with
  | false, false => none
  | true, false => some ⟨down, count, point⟩
  | false, true => some ⟨up, count, point⟩
  | true, true =>
    let takeDown := 2 * rest < scale || (2 * rest == scale && down % 2 == 0)
    some ⟨if takeDown then down else up, count, point⟩

/-- The first of the next `fuel` grids that has a decimal inside the interval. -/
def Interval.firstGrid? (i : Interval) (point : Int) : (fuel count : Nat) → Option Digits
  | 0, _ => none
  | fuel + 1, count =>
    match i.onGrid? point count with
    | some d => some d
    | none => i.firstGrid? point fuel (count + 1)

/-- A digit more than asked means the decimal was rounded up to a power of ten. -/
def Digits.normal (d : Digits) : Digits :=
  if Nat.pow 10 d.count ≤ d.digits then ⟨d.digits / 10, d.count, d.point + 1⟩ else d

/-- The shortest decimal of a finite positive number. -/
def shortest (x : Binary64) : Digits :=
  let (num, den) := x.ratio
  match (Interval.of x).firstGrid? (pointOf num den) 17 1 with
  | some d => d.normal
  | none => ⟨0, 1, 1⟩

end FileCluster.Decimal
