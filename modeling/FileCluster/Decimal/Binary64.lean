/-!
Binary floating-point numbers of 64 bits.

A finite number is a sign and a value `m * 2 ^ q` with a whole significand `m`. Arithmetic is exact
on such values and ends in one rounding, `Binary64.ofRatio`, to the nearest number, halves going
to the even significand.
-/

namespace FileCluster

/-- A floating-point number, by its 64 bits: sign, eleven bits of exponent, 52 of fraction. -/
structure Binary64 where
  bits : UInt64
  deriving DecidableEq, Repr, Inhabited

namespace Binary64

/-- The sign bit, `2 ^ 63`. -/
def signBit : Nat := 0x8000000000000000

/-- The bit above the fraction, `2 ^ 52`, which only the smallest numbers lack. -/
def leadingBit : Nat := 0x10000000000000

/-- Whether the sign bit is set. -/
def isNegative (x : Binary64) : Bool := signBit ≤ x.bits.toNat

/-- The bits without the sign. -/
def magnitudeBits (x : Binary64) : Nat := x.bits.toNat % signBit

/-- The bits of infinity; every finite magnitude is below. -/
def infinityBits : Nat := 2047 * leadingBit

/-- Neither infinite nor a NaN. -/
def isFinite (x : Binary64) : Bool := x.magnitudeBits < infinityBits

/-- The whole significand `m` of a finite value `m * 2 ^ q`. -/
def significand (x : Binary64) : Nat :=
  let e := x.magnitudeBits / leadingBit
  let f := x.magnitudeBits % leadingBit
  if e = 0 then f else leadingBit + f

/-- The exponent `q` of a finite value `m * 2 ^ q`, from -1074 upwards. -/
def exponent (x : Binary64) : Int :=
  let e : Nat := x.magnitudeBits / leadingBit
  if e = 0 then -1074 else (e : Int) - 1075

/-- A number from its sign and its other bits. -/
def ofMagnitude (negative : Bool) (magnitude : Nat) : Binary64 :=
  ⟨UInt64.ofNat (if negative then signBit + magnitude else magnitude)⟩

/-- Positive zero. -/
def zero : Binary64 := ofMagnitude false 0

/-- The quotient rounded to the nearest whole number, halves to the even one. -/
def roundDiv (num den : Nat) : Nat :=
  let q := num / den
  let r := num % den
  if 2 * r < den then q
  else if den < 2 * r then q + 1
  else if q % 2 = 0 then q else q + 1

/-- A ratio of naturals scaled by `2 ^ (-e)`. -/
def scale (num den : Nat) (e : Int) : Nat × Nat :=
  if 0 ≤ e then (num, den <<< e.toNat) else (num <<< (-e).toNat, den)

/-- The magnitude bits nearest to `num / den`, infinity if that is out of range. -/
def nearestBits (num den : Nat) : Nat :=
  if num = 0 then 0
  else
    let guess : Int := (num.log2 : Int) - (den.log2 : Int) - 52
    let (n, d) := scale num den guess
    let e := max (-1074) (if n / d < leadingBit then guess - 1 else guess)
    let (n, d) := scale num den e
    min infinityBits (roundDiv n d + (e + 1074).toNat * leadingBit)

/-- The number nearest to a ratio. -/
def ofRatio (negative : Bool) (num den : Nat) : Binary64 :=
  ofMagnitude negative (nearestBits num den)

/-- The number nearest to a natural number. -/
def ofNat (n : Nat) : Binary64 := ofRatio false n 1

/-- The same magnitude, positive or negative. -/
def withSign (negative : Bool) (x : Binary64) : Binary64 :=
  ofMagnitude negative x.magnitudeBits

/-- The magnitude of a finite number as a ratio. -/
def ratio (x : Binary64) : Nat × Nat :=
  if 0 ≤ x.exponent then (x.significand <<< x.exponent.toNat, 1)
  else (x.significand, 1 <<< (-x.exponent).toNat)

/-- The product of two finite magnitudes. -/
def mul (x y : Binary64) : Binary64 :=
  ofRatio false (x.ratio.1 * y.ratio.1) (x.ratio.2 * y.ratio.2)

/-- The quotient of two finite magnitudes. -/
def div (x y : Binary64) : Binary64 :=
  ofRatio false (x.ratio.1 * y.ratio.2) (x.ratio.2 * y.ratio.1)

end Binary64

end FileCluster
