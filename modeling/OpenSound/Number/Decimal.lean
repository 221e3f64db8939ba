/-!
# Decimal numerals

Digits times a power of ten, and how they are written with a point and as many zeros as that takes.
-/

namespace OpenSound

/-- The natural number times ten to the exponent. -/
structure Decimal where
  digits : Nat
  exponent : Int
  deriving DecidableEq, Repr

namespace Decimal

/-- The digits without sign, point or exponent. -/
def digitList (d : Decimal) : List Char := Nat.toDigits 10 d.digits

/-- The exponent of the first digit. -/
def leadingExponent (d : Decimal) : Int := d.exponent + (d.digitList.length - 1 : Nat)

/-- Zeros. -/
def zeros (n : Nat) : List Char := List.replicate n '0'

/-- Positional notation: the digits before the point, at least one, and those after it. -/
def positional (d : Decimal) : List Char × List Char :=
  let ds := d.digitList
  let places := (-d.exponent).toNat
  if 0 ≤ d.exponent then (ds ++ zeros d.exponent.toNat, [])
  else if places < ds.length then (ds.take (ds.length - places), ds.drop (ds.length - places))
  else (['0'], zeros (places - ds.length) ++ ds)

end Decimal

end OpenSound
