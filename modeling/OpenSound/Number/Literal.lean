import OpenSound.Number.Integer
import OpenSound.Number.Nearest
import OpenSound.Number.Shortest

/-!
# Floating point numbers as text

Reading takes a sign, then a name for an infinity or for what is not a number, or decimal digits with an optional
point and exponent, and rounds their exact value once. Writing gives the shortest digits that read back, always
in positional notation.
-/

namespace OpenSound

/-- Why a text is no floating point number. -/
inductive LiteralFault where
  | empty
  | malformed
  deriving DecidableEq, Repr

namespace LiteralFault

def message : LiteralFault → String
  | empty => "cannot parse float from empty string"
  | malformed => "invalid float literal"

end LiteralFault

namespace Decimal

/-- The value of a run of digits. -/
def digitsValue (ds : List Char) : Nat := ds.foldl (fun n c => n * 10 + (c.toNat - '0'.toNat)) 0

/-- An exponent after its letter: an optional sign and at least one digit. -/
def readExponent? (text : List Char) : Option Int :=
  let (negative, ds) := match text with
    | '+' :: rest => (false, rest)
    | '-' :: rest => (true, rest)
    | rest => (false, rest)
  if ds = [] ∨ !ds.all Char.isDigit then none
  else if negative then some (-(digitsValue ds : Int)) else some (digitsValue ds)

/-- An unsigned numeral: digits with an optional point among or around them, then an optional exponent. -/
def read? (text : List Char) : Option Decimal :=
  let whole := text.takeWhile Char.isDigit
  let rest := text.dropWhile Char.isDigit
  let (fraction, rest) := match rest with
    | '.' :: rest => (rest.takeWhile Char.isDigit, rest.dropWhile Char.isDigit)
    | rest => ([], rest)
  if whole = [] ∧ fraction = [] then none
  else
    let numeral (e : Int) : Decimal := ⟨digitsValue (whole ++ fraction), e - fraction.length⟩
    match rest with
    | [] => some (numeral 0)
    | c :: rest => if c = 'e' ∨ c = 'E' then (readExponent? rest).map numeral else none

end Decimal

namespace BinaryFormat

/-- A power of ten with this exponent is beyond every finite value, and with its negative below every half of the
    smallest one: ten is more than two. -/
def reach (f : BinaryFormat) : Int := f.exponentCount + f.fractionBits

/-- The bit pattern nearest to a decimal numeral. -/
def ofDecimal (f : BinaryFormat) (negative : Bool) (d : Decimal) : Nat :=
  if d.digits = 0 then f.signBit negative
  else if f.reach < d.leadingExponent then f.infinity negative
  else if d.leadingExponent < -f.reach then f.signBit negative
  else f.nearest negative (d.digits * Nat.pow 10 d.exponent.toNat) (Nat.pow 10 (-d.exponent).toNat)

/-- Reads an unsigned number; the names are read in any case. -/
def readMagnitude? (f : BinaryFormat) (negative : Bool) (text : List Char) : Option Nat :=
  let lower := text.map Char.toLower
  if lower = "inf".toList ∨ lower = "infinity".toList then some (f.infinity negative)
  else if lower = "nan".toList then some (f.quietNan negative)
  else (Decimal.read? text).map (f.ofDecimal negative)

/-- Reads a number of the format from a text. -/
def read (f : BinaryFormat) (text : List Char) : Except LiteralFault Nat :=
  let found := match text with
    | '+' :: rest => f.readMagnitude? false rest
    | '-' :: rest => f.readMagnitude? true rest
    | rest => f.readMagnitude? false rest
  match found with
  | some bits => .ok bits
  | none => .error (if text = [] then .empty else .malformed)

/-- A minus sign for a negative number. -/
def signText (negative : Bool) : List Char := if negative then ['-'] else []

/-- A decimal numeral in positional notation, without a point where no digit follows it. -/
def positionalText (d : Decimal) : List Char :=
  match d.positional with
  | (whole, []) => whole
  | (whole, fraction) => whole ++ '.' :: fraction

/-- A number in positional notation; a whole one has no point, and what is not a number has no sign. -/
def display (f : BinaryFormat) (bits : Nat) : String :=
  match f.value bits with
  | .nan _ => "NaN"
  | .infinite negative => String.ofList (signText negative ++ "inf".toList)
  | .finite negative 0 _ => String.ofList (signText negative ++ ['0'])
  | .finite negative m e => String.ofList (signText negative ++ positionalText (f.shortest .upward m e))

end BinaryFormat

end OpenSound
