import OpenSound.Number.BinaryFormat
import OpenSound.Number.Decimal

/-!
# The shortest decimal numeral of a floating point number

Of the decimal numerals that read back to a value, the ones with the coarsest last place are taken, and of those
the nearest to the value. A numeral reads back when it lies between the midpoints to the two neighbours of the
value, ends included where the mantissa is even, because a tie is read as the even mantissa.
-/

namespace OpenSound.BinaryFormat

/-- Which of two equally near numerals is taken. -/
inductive Tie where
  | upward
  | toEven
  deriving DecidableEq, Repr

/-- The numerals that read back to a value, in quarters of the last mantissa bit: the value, how far down and
    how far up they reach, and whether the ends belong to them. -/
structure Neighbourhood where
  centre : Nat
  below : Nat
  above : Nat
  closed : Bool

/-- The neighbourhood of a mantissa and an exponent. A full mantissa with all other bits clear has its lower
    neighbour at half the distance. -/
def neighbourhood (f : BinaryFormat) (mantissa : Nat) (exponent : Int) : Neighbourhood where
  centre := 4 * mantissa
  below := if mantissa = f.fractionCount ∧ f.leastExponent < exponent then 1 else 2
  above := 2
  closed := mantissa % 2 == 0

namespace Neighbourhood

/-- The numeral on a decimal grid that lies in the neighbourhood and is nearest to its centre, if one does.
    Centre and widths are multiplied by one number and the grid's unit is another, so that both are whole. -/
def onGrid? (n : Neighbourhood) (tie : Tie) (factor unit : Nat) : Option Nat :=
  let v := n.centre * factor
  let lower := v / unit
  let down := v - lower * unit
  let up := (lower + 1) * unit - v
  let belowFits := down < n.below * factor || n.closed && down == n.below * factor
  let aboveFits := up < n.above * factor || n.closed && up == n.above * factor
  if belowFits && aboveFits then
    if down < up then some lower
    else if up < down then some (lower + 1)
    else match tie with
      | .upward => some (lower + 1)
      | .toEven => some (lower + lower % 2)
  else if belowFits then some lower
  else if aboveFits then some (lower + 1)
  else none

/-- Goes down the decimal grids from a power of ten until one has a numeral in the neighbourhood. The quarter of
    the last bit is two to the given exponent. -/
def search (n : Neighbourhood) (tie : Tie) (quarter : Int) : Nat → Int → Decimal
  | 0, power => ⟨n.centre * Nat.pow 2 quarter.toNat, power⟩
  | steps + 1, power =>
    let factor := Nat.pow 2 quarter.toNat * Nat.pow 10 (-power).toNat
    let unit := Nat.pow 10 power.toNat * Nat.pow 2 (-quarter).toNat
    match n.onGrid? tie factor unit with
    | some d => ⟨d, power⟩
    | none => search n tie quarter steps (power - 1)

end Neighbourhood

/-- A power of ten above two to the given power: 30103 / 100000 is just above the logarithm of two. -/
def tenAbove (power : Int) : Int := Int.fdiv (power * 30103) 100000 + 1

/-- The shortest numeral of a positive value. A grid finer than the value's own bits always has one, so the
    search needs no more steps than the mantissa has bits, and a few for the start. -/
def shortest (f : BinaryFormat) (tie : Tie) (mantissa : Nat) (exponent : Int) : Decimal :=
  (f.neighbourhood mantissa exponent).search tie (exponent - 2) (f.fractionBits + 4)
    (tenAbove (exponent + (mantissa.log2 + 1 : Nat)))

end OpenSound.BinaryFormat
