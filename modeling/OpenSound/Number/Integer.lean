/-!
# Reading integers of a given range

A text is read as an optional sign and decimal digits. The first fault from the left decides: a character that is
no digit, or the digit with which the value leaves the range.
-/

namespace OpenSound

/-- Why a text is no integer of the wanted range. -/
inductive IntegerFault where
  | empty
  | invalidDigit
  | tooLarge
  | tooSmall
  deriving DecidableEq, Repr

namespace IntegerFault

def message : IntegerFault → String
  | empty => "cannot parse integer from empty string"
  | invalidDigit => "invalid digit found in string"
  | tooLarge => "number too large to fit in target type"
  | tooSmall => "number too small to fit in target type"

end IntegerFault

/-- The integers from a least to a greatest one. -/
structure IntegerRange where
  least : Int
  greatest : Int

namespace IntegerRange

/-- The two's complement integers of a width. -/
def signed (width : Nat) : IntegerRange := ⟨-(Nat.pow 2 (width - 1) : Int), (Nat.pow 2 (width - 1) : Int) - 1⟩

/-- The natural numbers below a power of two. -/
def unsigned (width : Nat) : IntegerRange := ⟨0, (Nat.pow 2 width : Int) - 1⟩

def contains (r : IntegerRange) (i : Int) : Bool := r.least ≤ i && i ≤ r.greatest

theorem contains_iff (r : IntegerRange) (i : Int) : r.contains i = true ↔ r.least ≤ i ∧ i ≤ r.greatest := by
  simp [contains]

theorem contains_unsigned {width n : Nat} : (unsigned width).contains n = true ↔ n < Nat.pow 2 width := by
  rw [contains_iff, unsigned]
  simp only [Int.natCast_nonneg, true_and]
  omega

theorem contains_signed {width : Nat} {i : Int} :
    (signed width).contains i = true ↔ -(Nat.pow 2 (width - 1) : Int) ≤ i ∧ i < Nat.pow 2 (width - 1) := by
  rw [contains_iff, signed, Int.le_sub_one_iff]

/-- The value of an ASCII digit. -/
def digit? (c : Char) : Option Nat := if c.isDigit then some (c.toNat - '0'.toNat) else none

/-- The value of digits that continue a number, refused as soon as it passes a limit. -/
def magnitude (limit : Nat) (beyond : IntegerFault) (value : Nat) : List Char → Except IntegerFault Nat
  | [] => .ok value
  | c :: rest =>
    match digit? c with
    | none => .error .invalidDigit
    | some d =>
      if value * 10 + d ≤ limit then magnitude limit beyond (value * 10 + d) rest else .error beyond

/-- Reads an integer of the range. A minus sign is a sign only where the range has negative numbers, and a sign
    alone is no number. -/
def read (r : IntegerRange) (text : List Char) : Except IntegerFault Int :=
  match text with
  | [] => .error .empty
  | c :: rest =>
    if c = '+' then
      if rest = [] then .error .invalidDigit else (magnitude r.greatest.toNat .tooLarge 0 rest).map Int.ofNat
    else if c = '-' ∧ r.least < 0 then
      if rest = [] then .error .invalidDigit
      else (magnitude (-r.least).toNat .tooSmall 0 rest).map fun n => -Int.ofNat n
    else (magnitude r.greatest.toNat .tooLarge 0 (c :: rest)).map Int.ofNat

end IntegerRange

end OpenSound
