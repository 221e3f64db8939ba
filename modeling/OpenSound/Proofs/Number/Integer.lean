import Mathlib.Tactic.SplitIfs
import OpenSound.Number.Integer

/-!
# Integers as text

The reader takes a text exactly if it is an integer's in decimal digits, with a sign or without one, and the integer is in
the range. A digit that leaves the range ends the reading at once, so no value is ever reduced to fit.
-/

namespace OpenSound

/-- Decimal digits, at least one. -/
def IsDigits (ds : List Char) : Prop := ds ≠ [] ∧ ∀ c ∈ ds, c.isDigit = true

/-- The texts of an integer: decimal digits alone or behind a plus sign, and behind a minus sign where there are negative
    integers. -/
inductive IntegerText (isSigned : Bool) : List Char → Int → Prop
  | plain {ds : List Char} (digits : IsDigits ds) : IntegerText isSigned ds (Nat.ofDigitChars 10 ds 0)
  | plus {ds : List Char} (digits : IsDigits ds) : IntegerText isSigned ('+' :: ds) (Nat.ofDigitChars 10 ds 0)
  | minus {ds : List Char} (signed : isSigned = true) (digits : IsDigits ds) :
      IntegerText isSigned ('-' :: ds) (-(Nat.ofDigitChars 10 ds 0 : Int))

namespace IsDigits

theorem toDigits (n : Nat) : IsDigits (Nat.toDigits 10 n) :=
  ⟨Nat.toDigits_ne_nil, fun _ member => Nat.isDigit_of_mem_toDigits (by decide) (by decide) member⟩

/-- Digits do not begin with a sign. -/
theorem head_ne {c : Char} {ds : List Char} (digits : IsDigits (c :: ds)) {sign : Char}
    (noDigit : sign.isDigit = false) : c ≠ sign := by
  rintro rfl
  simp [digits.2 c List.mem_cons_self] at noDigit

end IsDigits

namespace IntegerText

/-- An integer's own decimal text is one of its texts. -/
theorem of_toString {isSigned : Bool} {i : Int} (signed : i < 0 → isSigned = true) :
    IntegerText isSigned (toString i).toList i := by
  rw [Int.toString_eq_repr, Int.repr_eq_if]
  split_ifs with nonneg
  · have text : IntegerText isSigned _ _ := .plain (IsDigits.toDigits i.toNat)
    rwa [Nat.ofDigitChars_ten_toDigits, Int.toNat_of_nonneg nonneg, ← Nat.toList_repr] at text
  · have text := IntegerText.minus (signed (Int.not_le.mp nonneg)) (IsDigits.toDigits (-i).toNat)
    rw [Nat.ofDigitChars_ten_toDigits, Int.toNat_of_nonneg (by omega), Int.neg_neg, ← Nat.toList_repr] at text
    rwa [String.toList_append]

/-- Behind a plus sign there are digits. -/
theorem plus_iff {isSigned : Bool} {ds : List Char} {i : Int} :
    IntegerText isSigned ('+' :: ds) i ↔ IsDigits ds ∧ i = Nat.ofDigitChars 10 ds 0 := by
  constructor
  · intro text
    cases text with
    | plain digits => exact absurd rfl (digits.head_ne (by decide))
    | plus digits => exact ⟨digits, rfl⟩
  · rintro ⟨digits, rfl⟩
    exact .plus digits

/-- Behind a minus sign there are digits, and negative integers there must be. -/
theorem minus_iff {isSigned : Bool} {ds : List Char} {i : Int} :
    IntegerText isSigned ('-' :: ds) i ↔ isSigned = true ∧ IsDigits ds ∧ i = -(Nat.ofDigitChars 10 ds 0 : Int) := by
  constructor
  · intro text
    cases text with
    | plain digits => exact absurd rfl (digits.head_ne (by decide))
    | minus signed digits => exact ⟨signed, digits, rfl⟩
  · rintro ⟨signed, digits, rfl⟩
    exact .minus signed digits

/-- Without a sign there are only digits. -/
theorem plain_iff {isSigned : Bool} {text : List Char} {i : Int} (noPlus : text.head? ≠ some '+')
    (noMinus : isSigned = true → text.head? ≠ some '-') :
    IntegerText isSigned text i ↔ IsDigits text ∧ i = Nat.ofDigitChars 10 text 0 := by
  constructor
  · intro spelled
    cases spelled with
    | plain digits => exact ⟨digits, rfl⟩
    | plus => exact absurd rfl noPlus
    | minus signed => exact absurd rfl (noMinus signed)
  · rintro ⟨digits, rfl⟩
    exact .plain digits

end IntegerText

namespace IntegerRange

theorem digit?_eq_some_iff {c : Char} {d : Nat} : digit? c = some d ↔ c.isDigit = true ∧ c.toNat - '0'.toNat = d := by
  simp [digit?]

/-- Digits that continue a number do not make it smaller. -/
theorem le_ofDigitChars (value : Nat) (ds : List Char) : value ≤ Nat.ofDigitChars 10 ds value := by
  induction ds generalizing value with
  | nil => exact Nat.le_refl value
  | cons c ds ih =>
    rw [Nat.ofDigitChars_cons]
    exact Nat.le_trans (by omega) (ih _)

/-- Digits are read as their value, as long as it is within the limit. -/
theorem magnitude_iff {limit : Nat} {beyond : IntegerFault} {value n : Nat} {ds : List Char} (small : value ≤ limit) :
    magnitude limit beyond value ds = .ok n ↔
      (∀ c ∈ ds, c.isDigit = true) ∧ n = Nat.ofDigitChars 10 ds value ∧ n ≤ limit := by
  induction ds generalizing value with
  | nil =>
    simp only [magnitude, Except.ok.injEq, Nat.ofDigitChars_nil, List.not_mem_nil, false_implies, implies_true, true_and]
    constructor
    · rintro rfl
      exact ⟨rfl, small⟩
    · rintro ⟨rfl, -⟩
      rfl
  | cons c ds ih =>
    rw [magnitude, List.forall_mem_cons, Nat.ofDigitChars_cons, Nat.mul_comm 10]
    cases digit : digit? c with
    | none =>
      have noDigit : c.isDigit ≠ true := by simpa [digit?] using digit
      simp [noDigit]
    | some d =>
      obtain ⟨isDigit, rfl⟩ := digit?_eq_some_iff.mp digit
      dsimp only
      split_ifs with fits
      · rw [ih fits]
        simp [isDigit]
      · -- The value only grows, so it stays beyond the limit.
        have grows := le_ofDigitChars (value * 10 + (c.toNat - '0'.toNat)) ds
        refine iff_of_false nofun ?_
        rintro ⟨-, rfl, within⟩
        exact fits (Nat.le_trans grows within)

/-- Where something stands, it is read if it is digits of a value within the limit. -/
theorem magnitude_map_iff {limit : Nat} {beyond : IntegerFault} {build : Nat → Int} {ds : List Char} {i : Int}
    (some : ds ≠ []) : (magnitude limit beyond 0 ds).map build = .ok i ↔
      (IsDigits ds ∧ i = build (Nat.ofDigitChars 10 ds 0)) ∧ Nat.ofDigitChars 10 ds 0 ≤ limit := by
  have read (n : Nat) : magnitude limit beyond 0 ds = .ok n ↔ _ := magnitude_iff (Nat.zero_le limit)
  constructor
  · intro mapped
    cases value : magnitude limit beyond 0 ds with
    | error fault => simp [value, Except.map] at mapped
    | ok n =>
      obtain ⟨digits, rfl, within⟩ := (read n).mp value
      rw [value] at mapped
      exact ⟨⟨⟨some, digits⟩, (Except.ok.inj mapped).symm⟩, within⟩
  · rintro ⟨⟨digits, rfl⟩, within⟩
    rw [(read _).mpr ⟨digits.2, rfl, within⟩]
    rfl

/-- Behind a sign something has to stand. -/
theorem signed_map_iff {limit : Nat} {beyond : IntegerFault} {build : Nat → Int} {ds : List Char} {i : Int} :
    (if ds = [] then .error .invalidDigit else (magnitude limit beyond 0 ds).map build) = Except.ok i ↔
      (IsDigits ds ∧ i = build (Nat.ofDigitChars 10 ds 0)) ∧ Nat.ofDigitChars 10 ds 0 ≤ limit := by
  split_ifs with empty
  · refine iff_of_false nofun ?_
    rintro ⟨⟨digits, -⟩, -⟩
    exact digits.1 empty
  · exact magnitude_map_iff empty

/-- A text is read exactly if it is a text of an integer of the range, and then as that integer. -/
theorem read_iff {r : IntegerRange} (least : r.least ≤ 0) (greatest : 0 ≤ r.greatest) {text : List Char} {i : Int} :
    r.read text = .ok i ↔ IntegerText (decide (r.least < 0)) text i ∧ r.contains i = true := by
  rw [contains_iff]
  cases text with
  | nil =>
    refine iff_of_false nofun ?_
    rintro ⟨spelled, -⟩
    cases spelled with
    | plain digits => exact digits.1 rfl
  | cons c ds =>
    rw [read]
    by_cases plus : c = '+'
    · subst plus
      rw [if_pos rfl, signed_map_iff, IntegerText.plus_iff]
      refine and_congr_right ?_
      rintro ⟨-, rfl⟩
      simp only [Int.ofNat_eq_natCast]
      omega
    · rw [if_neg plus]
      by_cases minus : c = '-' ∧ r.least < 0
      · obtain ⟨rfl, negative⟩ := minus
        rw [if_pos ⟨rfl, negative⟩, signed_map_iff, IntegerText.minus_iff, decide_eq_true_iff, and_iff_right negative]
        refine and_congr_right ?_
        rintro ⟨-, rfl⟩
        simp only [Int.ofNat_eq_natCast]
        omega
      · have noMinus (signed : decide (r.least < 0) = true) : (c :: ds).head? ≠ some '-' := by
          rintro ⟨⟩
          exact minus ⟨rfl, of_decide_eq_true signed⟩
        rw [if_neg minus, magnitude_map_iff (List.cons_ne_nil c ds), IntegerText.plain_iff (by simpa using plus) noMinus]
        refine and_congr_right ?_
        rintro ⟨-, rfl⟩
        simp only [Int.ofNat_eq_natCast]
        omega

end IntegerRange

end OpenSound
