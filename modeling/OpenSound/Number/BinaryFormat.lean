/-!
# Binary floating point numbers as bit patterns

A format is given by the widths of its fraction and its exponent. A bit pattern stands for a signed zero, a
signed infinity, a number that is not a number, or a mantissa times a power of two.
-/

namespace OpenSound

/-- A binary interchange format: one sign bit, then the exponent, then the fraction. -/
structure BinaryFormat where
  fractionBits : Nat
  exponentBits : Nat
  deriving DecidableEq, Repr

/-- What a bit pattern stands for. A finite value is the mantissa times two to the exponent. -/
inductive BinaryValue where
  | nan (negative : Bool)
  | infinite (negative : Bool)
  | finite (negative : Bool) (mantissa : Nat) (exponent : Int)
  deriving DecidableEq, Repr

namespace BinaryFormat

/-- The format of 32 bits. -/
def single : BinaryFormat := ⟨23, 8⟩

/-- The format of 64 bits. -/
def double : BinaryFormat := ⟨52, 11⟩

/-- How many values the fraction field has. -/
def fractionCount (f : BinaryFormat) : Nat := Nat.pow 2 f.fractionBits

/-- How many values the exponent field has. -/
def exponentCount (f : BinaryFormat) : Nat := Nat.pow 2 f.exponentBits

/-- What is taken off the exponent field to give the exponent of a mantissa of one point something. -/
def bias (f : BinaryFormat) : Nat := f.exponentCount / 2 - 1

/-- The exponent field of infinities and of what is not a number. -/
def topExponent (f : BinaryFormat) : Nat := f.exponentCount - 1

/-- The exponent of the smallest positive value. -/
def leastExponent (f : BinaryFormat) : Int := 1 - (f.bias : Int) - f.fractionBits

def isNegative (f : BinaryFormat) (bits : Nat) : Bool := bits.testBit (f.fractionBits + f.exponentBits)

def exponentField (f : BinaryFormat) (bits : Nat) : Nat := bits / f.fractionCount % f.exponentCount

def fractionField (f : BinaryFormat) (bits : Nat) : Nat := bits % f.fractionCount

/-- The sign bit, and every other bit clear. -/
def signBit (f : BinaryFormat) (negative : Bool) : Nat :=
  if negative then f.exponentCount * f.fractionCount else 0

/-- The bit pattern of an infinity. -/
def infinity (f : BinaryFormat) (negative : Bool) : Nat :=
  f.signBit negative + f.topExponent * f.fractionCount

/-- The bit pattern that stands for what is not a number when no other is given: the first fraction bit set. -/
def quietNan (f : BinaryFormat) (negative : Bool) : Nat :=
  f.infinity negative + f.fractionCount / 2

/-- What a bit pattern stands for. -/
def value (f : BinaryFormat) (bits : Nat) : BinaryValue :=
  let negative := f.isNegative bits
  let e := f.exponentField bits
  let m := f.fractionField bits
  if e = f.topExponent then if m = 0 then .infinite negative else .nan negative
  else if e = 0 then .finite negative m f.leastExponent
  else .finite negative (f.fractionCount + m) (f.leastExponent + (e - 1 : Nat))

/-- Whether two bit patterns are equal as numbers: what is not a number differs from everything, itself
    included, and the two zeros are equal. -/
def equal (f : BinaryFormat) (a b : Nat) : Bool :=
  match f.value a, f.value b with
  | .nan _, _ => false
  | _, .nan _ => false
  | .finite _ 0 _, .finite _ 0 _ => true
  | _, _ => a == b

end BinaryFormat

end OpenSound
