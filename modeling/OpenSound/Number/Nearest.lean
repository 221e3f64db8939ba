import OpenSound.Number.BinaryFormat

/-!
# Rounding to the nearest floating point number

A quotient of natural numbers is rounded to the nearest value of a format, a tie to the even mantissa. Products,
quotients and decimal numerals are all rounded by this one rule, once, from their exact value.
-/

namespace OpenSound.BinaryFormat

/-- The quotient rounded to the nearest integer, a tie to the even one. -/
def roundQuotient (num den : Nat) : Nat :=
  let q := num / den
  let r := num % den
  if 2 * r < den then q
  else if den < 2 * r then q + 1
  else q + q % 2

/-- The numerator and denominator of a quotient divided by a power of two. -/
def scale (num den : Nat) (exponent : Int) : Nat × Nat :=
  (num * Nat.pow 2 (-exponent).toNat, den * Nat.pow 2 exponent.toNat)

/-- The exponent of the last mantissa bit for a quotient that is not zero: low enough for a full mantissa, and
    never below the format's least exponent. -/
def unitExponent (f : BinaryFormat) (num den : Nat) : Int :=
  let low := max ((num.log2 : Int) - den.log2 - 1 - f.fractionBits) f.leastExponent
  let (n, d) := scale num den (low + f.fractionBits + 1)
  if d ≤ n then low + 1 else low

/-- The bit pattern nearest to a quotient; beyond the largest finite value it is the infinity. -/
def nearest (f : BinaryFormat) (negative : Bool) (num den : Nat) : Nat :=
  if num = 0 then f.signBit negative
  else
    let e := f.unitExponent num den
    let (n, d) := scale num den e
    let magnitude := (e - f.leastExponent).toNat * f.fractionCount + roundQuotient n d
    if f.topExponent * f.fractionCount ≤ magnitude then f.infinity negative
    else f.signBit negative + magnitude

/-- The bit pattern nearest to an integer. -/
def ofInt (f : BinaryFormat) (i : Int) : Nat := f.nearest (i < 0) i.natAbs 1

/-- The bit pattern nearest to a mantissa times a power of two. -/
def ofScaled (f : BinaryFormat) (negative : Bool) (mantissa : Nat) (exponent : Int) : Nat :=
  f.nearest negative (mantissa * Nat.pow 2 exponent.toNat) (Nat.pow 2 (-exponent).toNat)

/-- The same number in another format, rounded to nearest; what is not a number stays so with its sign. -/
def convert (source target : BinaryFormat) (bits : Nat) : Nat :=
  match source.value bits with
  | .nan negative => target.quietNan negative
  | .infinite negative => target.infinity negative
  | .finite negative m e => target.ofScaled negative m e

/-- The product of two magnitudes, rounded. Values that are not finite are taken as zero. -/
def mulMagnitude (f : BinaryFormat) (a b : Nat) : Nat :=
  match f.value a, f.value b with
  | .finite _ m e, .finite _ n k => f.ofScaled false (m * n) (e + k)
  | _, _ => 0

/-- The quotient of two magnitudes, rounded. Values that are not finite are taken as zero. -/
def divMagnitude (f : BinaryFormat) (a b : Nat) : Nat :=
  match f.value a, f.value b with
  | .finite _ m e, .finite _ n k =>
    let e := e - k
    f.nearest false (m * Nat.pow 2 e.toNat) (n * Nat.pow 2 (-e).toNat)
  | _, _ => 0

end OpenSound.BinaryFormat
