import OpenSound.Number.Integer
import OpenSound.Number.Nearest

/-!
# JSON values

Objects keep their members in order and with repetitions, numbers are kept as they were written, and a text may
hold what no string can: a lone surrogate, or a control character that should have been escaped. What reads a
value decides whether such a text will do.
-/

namespace OpenSound

/-- One unit of a JSON text. -/
inductive TextUnit where
  | char (c : Char)
  | control (c : Char)
  | surrogate (code : Nat)
  deriving DecidableEq

/-- A number as it is written: the digits before the point, those after it, and the exponent with its sign. -/
structure Numeral where
  isNegative : Bool
  whole : List Char
  fraction : List Char
  exponent : Option (Bool × List Char)
  deriving DecidableEq

inductive Json where
  | null
  | bool (b : Bool)
  | number (n : Numeral)
  | string (units : List TextUnit)
  | array (elements : List Json)
  | object (members : List (List TextUnit × Json))

namespace TextUnit

def char? : TextUnit → Option Char
  | char c => some c
  | _ => none

def isControl : TextUnit → Bool
  | control _ => true
  | _ => false

/-- The UTF-8 form of a unit; a lone surrogate takes three bytes like its neighbours in the code space. -/
def bytes : TextUnit → List UInt8
  | char c | control c => String.utf8EncodeChar c
  | surrogate code => [0xe0 + UInt8.ofNat (code / 4096), 0x80 + UInt8.ofNat (code / 64 % 64), 0x80 + UInt8.ofNat (code % 64)]

/-- The units of a string. -/
def ofString (s : String) : List TextUnit := s.toList.map char

/-- The string that some units are, if each of them is a character. -/
def string? (units : List TextUnit) : Option String :=
  if units.all fun u => u.char?.isSome then some (String.ofList (units.filterMap char?)) else none

end TextUnit

namespace Numeral

/-- The value of a run of digits. -/
def digitsValue (ds : List Char) : Nat := ds.foldl (fun n c => n * 10 + (c.toNat - '0'.toNat)) 0

/-- An integer as a number. -/
def ofInt (i : Int) : Numeral := ⟨i < 0, Nat.toDigits 10 i.natAbs, [], none⟩

/-- The integer that a number is: one written without point and exponent that fits 64 bits, signed if it has a
    sign. Minus zero is no integer. -/
def integer? (n : Numeral) : Option Int :=
  let v := digitsValue n.whole
  if n.fraction ≠ [] ∨ n.exponent.isSome then none
  else if n.isNegative then if 0 < v ∧ (IntegerRange.signed 64).contains (-v) then some (-v) else none
  else if (IntegerRange.unsigned 64).contains v then some v else none

/-- Reads digits onto a significand of 64 bits, as many as fit, and gives the digits that do not. -/
def gather (significand : Nat) : List Char → Nat × List Char
  | [] => (significand, [])
  | c :: cs =>
    let next := significand * 10 + (c.toNat - '0'.toNat)
    if next < UInt64.size then gather next cs else (significand, c :: cs)

/-- The significand of a number, and the power of ten it has without the written exponent. Digits that do not fit
    count as places before the point and not at all after it. -/
def significand (n : Numeral) : Nat × Int :=
  let (s, dropped) := gather 0 n.whole
  let (t, rest) := gather s n.fraction
  (t, (dropped.length : Int) - (n.fraction.length - rest.length : Nat))

/-- The greatest power of ten that a 64-bit floating point number holds. -/
def maxPower : Nat := 308

/-- The nearest 64-bit number to a power of ten. -/
def powerOfTen (e : Nat) : Nat := BinaryFormat.double.nearest false (Nat.pow 10 e) 1

/-- A 64-bit number times a power of ten, rounded after every step: one product or one quotient, and before it as
    many quotients by the greatest power as it takes. Nothing comes out beyond the largest finite number. -/
def scaleByTen (bits : Nat) (e : Int) : Option Nat :=
  if e.natAbs ≤ maxPower then
    if 0 ≤ e then
      let product := BinaryFormat.double.mulMagnitude bits (powerOfTen e.natAbs)
      if product = BinaryFormat.double.infinity false then none else some product
    else some (BinaryFormat.double.divMagnitude bits (powerOfTen e.natAbs))
  else if bits = 0 then some 0
  else if 0 ≤ e then none
  else scaleByTen (BinaryFormat.double.divMagnitude bits (powerOfTen maxPower)) (e + maxPower)
termination_by e.natAbs
decreasing_by simp only [maxPower] at *; omega

/-- The nearest 64-bit number to the significand, scaled by the exponent, with the number's sign. An exponent
    beyond 31 bits makes zero or nothing, whatever the significand. -/
def scaled? (n : Numeral) : Option Nat :=
  let (s, e) := n.significand
  let magnitude := match n.exponent with
    | none => scaleByTen (BinaryFormat.double.nearest false s 1) e
    | some (isNegative, ds) =>
      let x := digitsValue ds
      if !(IntegerRange.signed 32).contains x then if s ≠ 0 ∧ !isNegative then none else some 0
      else scaleByTen (BinaryFormat.double.nearest false s 1) (if isNegative then e - x else e + x)
  magnitude.map fun bits => BinaryFormat.double.signBit n.isNegative + bits

/-- The 64-bit floating point number that a number stands for. -/
def double? (n : Numeral) : Option Nat :=
  match n.integer? with
  | some i => some (BinaryFormat.double.ofInt i)
  | none => n.scaled?

/-- The 32-bit floating point number that a number stands for: an integer is rounded at once, and any other number
    by way of 64 bits. -/
def single? (n : Numeral) : Option Nat :=
  match n.integer? with
  | some i => some (BinaryFormat.single.ofInt i)
  | none => n.scaled?.map (BinaryFormat.double.convert .single)

end Numeral

namespace Json

/-- The string that a value is. -/
def string? : Json → Option String
  | string units => TextUnit.string? units
  | _ => none

/-- The integer of a range that a value is. -/
def int? (range : IntegerRange) : Json → Option Int
  | number n =>
    match n.integer? with
    | some i => if range.contains i then some i else none
    | none => none
  | _ => none

def bool? : Json → Option Bool
  | bool b => some b
  | _ => none

mutual

/-- Whether every text of a value has its control characters escaped. -/
def isClean : Json → Bool
  | null | bool _ | number _ => true
  | string units => !units.any TextUnit.isControl
  | array elements => allClean elements
  | object members => membersClean members

def allClean : List Json → Bool
  | [] => true
  | v :: vs => v.isClean && allClean vs

def membersClean : List (List TextUnit × Json) → Bool
  | [] => true
  | (key, v) :: ms => !key.any TextUnit.isControl && v.isClean && membersClean ms

end

/-- The value of the one member with a name. -/
def member? (members : List (List TextUnit × Json)) (name : String) : Option Json :=
  match members.filter fun m => TextUnit.string? m.1 == some name with
  | [m] => some m.2
  | _ => none

/-- Whether a member may stand beside the named ones: its key is a string, and it is one of the names or its value
    is ignored. -/
def isAllowed (names : List String) (m : List TextUnit × Json) : Bool :=
  match TextUnit.string? m.1 with
  | some key => names.contains key || m.2.isClean
  | none => false

/-- The values of one member for each name, all or nothing. -/
def namedValues? (members : List (List TextUnit × Json)) : List String → Option (List Json)
  | [] => some []
  | name :: names =>
    match member? members name, namedValues? members names with
    | some v, some vs => some (v :: vs)
    | _, _ => none

/-- The fields of a record: an array of exactly its fields in order, or an object that has each of them once. -/
def fields? (names : List String) : Json → Option (List Json)
  | array elements => if elements.length = names.length then some elements else none
  | object members => if members.all (isAllowed names) then namedValues? members names else none
  | _ => none

/-- The name and the value of an alternative: an object with one member. -/
def variant? : Json → Option (String × Json)
  | object [(key, v)] => (TextUnit.string? key).map (·, v)
  | _ => none

end Json

end OpenSound
