import FileCluster.Decimal.Shortest

/-!
How a floating-point number is laid out as text.

The digits are the shortest that read back. A `Layout` says where positional notation ends and how
an exponent is written; `Layout.text` is the text in that layout.
-/

namespace FileCluster.Decimal

/-- The decisions of a notation for floating-point numbers. The scientific exponent of a number is
that of its first digit. -/
structure Layout where
  /-- The least scientific exponent written positionally. -/
  leastPositional : Int
  /-- The first scientific exponent above, not written positionally any more. -/
  endPositional : Int
  /-- The sign before an exponent that is not negative. -/
  plus : String

/-- Zeros before a numeral until it has the asked width. -/
def padded (width : Nat) (n : Nat) : String :=
  let s := toString n
  String.ofList (List.replicate (width - s.length) '0') ++ s

/-- A run of zeros. -/
def zeros (n : Nat) : String := String.ofList (List.replicate n '0')

/-- Digits without the zeros at their end; one digit always stays. -/
def stripZeros (fuel : Nat) (d : Digits) : Digits :=
  match fuel with
  | 0 => d
  | fuel + 1 =>
    if 1 < d.count ∧ d.digits % 10 = 0 then stripZeros fuel ⟨d.digits / 10, d.count - 1, d.point⟩
    else d

/-- The text of a positive decimal. -/
def Layout.digitsText (l : Layout) (d : Digits) : String :=
  let d := stripZeros d.count d
  let ds := padded d.count d.digits
  let e := d.point - 1
  if l.leastPositional ≤ e ∧ e < l.endPositional then
    if d.point ≤ 0 then "0." ++ zeros (-d.point).toNat ++ ds
    else if d.count ≤ d.point.toNat then ds ++ zeros (d.point.toNat - d.count) ++ ".0"
    else
      String.ofList (ds.toList.take d.point.toNat) ++ "." ++
        String.ofList (ds.toList.drop d.point.toNat)
  else
    let head := String.ofList (ds.toList.take 1)
    let tail := String.ofList (ds.toList.drop 1)
    let mantissa := if tail.isEmpty then head else head ++ "." ++ tail
    let sign := if e < 0 then "-" else l.plus
    mantissa ++ "e" ++ sign ++ toString e.natAbs

/-- The text of a finite number. -/
def Layout.text (l : Layout) (x : Binary64) : String :=
  let body := if x.significand = 0 then "0.0" else l.digitsText (shortest x)
  if x.isNegative then "-" ++ body else body

end FileCluster.Decimal
