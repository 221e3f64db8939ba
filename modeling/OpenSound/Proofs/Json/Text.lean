import Mathlib.Data.List.Basic
import OpenSound.Json.Text

/-!
# JSON text read back

A value whose numbers are integers and whose strings hold characters only is read back from its text, whatever follows
it, as long as that does not go on with its last number. And no text has a control character, so it is a single line.
-/

namespace OpenSound

namespace Numeral

/-- What can follow a number in a text without becoming part of it. -/
def Ends (rest : List Char) : Prop := ∀ c ∈ rest.head?, c.isDigit = false ∧ c ≠ '.' ∧ c ≠ 'e' ∧ c ≠ 'E'

private theorem ends_nil : Ends [] := nofun

private theorem ends_cons {c : Char} (rest : List Char) (apart : c.isDigit = false ∧ c ≠ '.' ∧ c ≠ 'e' ∧ c ≠ 'E') :
    Ends (c :: rest) := by
  intro d first
  rwa [← Option.some.inj first]

theorem isDigit_toDigits (n : Nat) : ∀ c ∈ Nat.toDigits 10 n, c.isDigit = true :=
  fun _ member => Nat.isDigit_of_mem_toDigits (by decide) (by decide) member

private theorem digitsValue_toDigits (n : Nat) : digitsValue (Nat.toDigits 10 n) = n := by
  have value : Nat.ofDigitChars 10 (Nat.toDigits 10 n) 0 = n := Nat.ofDigitChars_ten_toDigits
  rw [Nat.ofDigitChars_eq_foldl] at value
  simpa only [digitsValue, Nat.mul_comm 10] using value

/-- No number but zero is written with a zero in front. -/
theorem head_toDigits_ne_zero {n : Nat} (positive : n ≠ 0) : (Nat.toDigits 10 n).head? ≠ some '0' := by
  induction n using Nat.strongRecOn with
  | ind n ih =>
    by_cases small : n < 10
    · rw [Nat.toDigits_of_lt_base small]
      have digits : ∀ d < 10, d ≠ 0 → [Nat.digitChar d].head? ≠ some '0' := by decide
      exact digits n small positive
    · have shorter := ih (n / 10) (by omega) (by omega)
      rw [Nat.toDigits_of_base_le (by decide) (by omega), List.head?_append]
      cases front : (Nat.toDigits 10 (n / 10)).head? with
      | none => exact absurd (List.head?_eq_none_iff.mp front) Nat.toDigits_ne_nil
      | some c => rwa [front] at shorter

private theorem no_leading_zero (n : Nat) :
    ¬(Nat.toDigits 10 n = [] ∨ (Nat.toDigits 10 n).head? = some '0' ∧ (Nat.toDigits 10 n).length ≠ 1) := by
  rintro (empty | ⟨zero, long⟩)
  · exact Nat.toDigits_ne_nil empty
  · by_cases positive : n = 0
    · subst positive
      exact long rfl
    · exact head_toDigits_ne_zero positive zero

private theorem text_ofInt (i : Int) : (ofInt i).text = (if i < 0 then ['-'] else []) ++ Nat.toDigits 10 i.natAbs := by
  by_cases negative : i < 0 <;> simp [ofInt, text, negative]

private theorem takeWhile_toDigits (n : Nat) {rest : List Char} (ends : Ends rest) :
    (Nat.toDigits 10 n ++ rest).takeWhile Char.isDigit = Nat.toDigits 10 n ∧
      (Nat.toDigits 10 n ++ rest).dropWhile Char.isDigit = rest := by
  rw [List.takeWhile_append_of_pos (isDigit_toDigits n), List.dropWhile_append_of_pos (isDigit_toDigits n)]
  cases rest with
  | nil => simp
  | cons c rest =>
    have other := (ends c rfl).1
    simp [other]

private theorem readFraction?_ends {rest : List Char} (ends : Ends rest) : readFraction? rest = some ([], rest) := by
  cases rest with
  | nil => rfl
  | cons c rest =>
    obtain ⟨-, noPoint, -⟩ := ends c rfl
    unfold readFraction?
    split
    · rename_i same
      exact absurd (List.cons.inj same).1 noPoint
    · rfl

private theorem readExponent?_ends {rest : List Char} (ends : Ends rest) : readExponent? rest = some (none, rest) := by
  cases rest with
  | nil => rfl
  | cons c rest =>
    obtain ⟨-, -, noExponent⟩ := ends c rfl
    rw [readExponent?, if_neg (not_or.mpr noExponent)]

private theorem readUnsigned?_toDigits (isNegative : Bool) (n : Nat) {rest : List Char} (ends : Ends rest) :
    readUnsigned? isNegative (Nat.toDigits 10 n ++ rest) = some (⟨isNegative, Nat.toDigits 10 n, [], none⟩, rest) := by
  obtain ⟨digits, after⟩ := takeWhile_toDigits n ends
  simp only [readUnsigned?, digits, after, if_neg (no_leading_zero n), readFraction?_ends ends, readExponent?_ends ends,
    Option.map_some]

/-- A number that is how an integer is written. -/
def IsInteger (n : Numeral) : Prop := ∃ i, n = ofInt i

theorem isInteger_ofInt (i : Int) : (ofInt i).IsInteger := ⟨i, rfl⟩

/-- An integer is read back from its text. -/
theorem read?_ofInt (i : Int) {rest : List Char} (ends : Ends rest) :
    read? ((ofInt i).text ++ rest) = some (ofInt i, rest) := by
  rw [text_ofInt]
  by_cases negative : i < 0
  · rw [if_pos negative, List.cons_append, List.nil_append, List.cons_append, read?, readUnsigned?_toDigits true _ ends]
    simp [ofInt, negative]
  · rw [if_neg negative, List.nil_append]
    have unsigned := readUnsigned?_toDigits false i.natAbs ends
    have digits := isDigit_toDigits i.natAbs
    cases front : Nat.toDigits 10 i.natAbs with
    | nil => exact absurd front Nat.toDigits_ne_nil
    | cons c ds =>
      rw [front] at unsigned digits
      have noSign : c ≠ '-' := by
        rintro rfl
        exact absurd (digits '-' List.mem_cons_self) (by decide)
      unfold read?
      split
      · rename_i same
        exact absurd (List.cons.inj same).1 noSign
      · rw [unsigned]
        simp [ofInt, negative, front]

/-- An integer of 64 bits, signed or not, is the integer that its number is. -/
theorem integer?_ofInt {i : Int} (least : (IntegerRange.signed 64).least ≤ i)
    (greatest : i ≤ (IntegerRange.unsigned 64).greatest) : (ofInt i).integer? = some i := by
  have value : digitsValue (ofInt i).whole = i.natAbs := digitsValue_toDigits _
  have written : ¬((ofInt i).fraction ≠ [] ∨ (ofInt i).exponent.isSome = true) := by simp [ofInt]
  rw [integer?, if_neg written, value]
  by_cases negative : i < 0
  · have sign : (ofInt i).isNegative = true := by simp [ofInt, negative]
    have same : -(i.natAbs : Int) = i := by omega
    have nonneg : 0 ≤ (IntegerRange.signed 64).greatest := by decide
    have fits : (IntegerRange.signed 64).contains i = true := (IntegerRange.contains_iff _ _).mpr ⟨least, by omega⟩
    rw [if_pos sign, same, if_pos ⟨by omega, fits⟩]
  · have sign : ¬(ofInt i).isNegative = true := by simp [ofInt, negative]
    have same : (i.natAbs : Int) = i := by omega
    have fits : (IntegerRange.unsigned 64).contains i = true :=
      (IntegerRange.contains_iff _ _).mpr ⟨Int.not_lt.mp negative, greatest⟩
    rw [if_neg sign, same, if_pos fits]

end Numeral

namespace TextUnit

private theorem hexDigit?_digitChar : ∀ d < 16, hexDigit? (Nat.digitChar d) = some d := by decide

private theorem hexCode?_codeText {code : Nat} (small : code < 65536) :
    hexCode? (Nat.digitChar (code / 4096 % 16)) (Nat.digitChar (code / 256 % 16)) (Nat.digitChar (code / 16 % 16))
      (Nat.digitChar (code % 16)) = some code := by
  have digit (n : Nat) : hexDigit? (Nat.digitChar (n % 16)) = some (n % 16) :=
    hexDigit?_digitChar _ (Nat.mod_lt _ (by decide))
  simp only [hexCode?, digit, Option.some.injEq]
  omega

/-- The code of a control character is no surrogate, and so stands for that character. -/
theorem read?_codeText {c : Char} (small : c.toNat < 32) (rest : List Char) :
    read? (codeText c.toNat ++ rest) = (read? rest).map fun r => (char c :: r.1, r.2) := by
  have code : hexCode? _ _ _ _ = some c.toNat := hexCode?_codeText (by omega)
  have alone (units : List TextUnit) : consCode c.toNat units = char c :: units := by
    have noLeading : ¬isLeading c.toNat = true := by
      simp only [isLeading, Bool.and_eq_true, decide_eq_true_eq]
      omega
    have noTrailing : ¬isTrailing c.toNat = true := by
      simp only [isTrailing, Bool.and_eq_true, decide_eq_true_eq]
      omega
    unfold consCode
    rw [if_neg noLeading, if_neg noTrailing, Char.ofNat_toNat]
  simp only [codeText, List.cons_append, List.nil_append, read?, code]
  cases read? rest <;> simp [alone]

/-- A backslash and a letter for a character. -/
theorem read?_backslash {letter c : Char} (known : unescape? letter = some c) (rest : List Char) :
    read? ('\\' :: letter :: rest) = (read? rest).map fun r => (char c :: r.1, r.2) := by
  rw [read?.eq_def]
  split
  case h_4 same =>
    obtain ⟨rfl, rfl⟩ := List.cons.inj (List.cons.inj same).2
    rw [known]
    cases read? rest <;> rfl
  case h_3 same =>
    obtain ⟨rfl, -⟩ := List.cons.inj (List.cons.inj same).2
    simp [unescape?] at known
  case h_5 other same =>
    obtain ⟨rfl, rfl⟩ := List.cons.inj same
    exact (other letter rest rfl rfl).elim
  all_goals simp_all

private theorem read?_plain {c : Char} (noQuote : c ≠ '\x22') (noBackslash : c ≠ '\\') (large : ¬c.toNat < 32)
    (rest : List Char) : read? (c :: rest) = (read? rest).map fun r => (char c :: r.1, r.2) := by
  rw [read?.eq_def]
  split
  case h_5 same =>
    obtain ⟨rfl, rfl⟩ := List.cons.inj same
    cases read? rest <;> simp [large]
  all_goals simp_all

/-- A character is read back from the way it is written. -/
theorem read?_escape (c : Char) (rest : List Char) :
    read? (escape c ++ rest) = (read? rest).map fun r => (char c :: r.1, r.2) := by
  unfold escape
  split
  case h_8 noQuote noBackslash _ _ _ _ _ =>
    by_cases small : c.toNat < 32
    · rw [if_pos small]
      exact read?_codeText small rest
    · rw [if_neg small]
      exact read?_plain noQuote noBackslash small rest
  -- The other seven are written as a backslash and a letter.
  all_goals exact read?_backslash rfl rest

/-- Characters are read back up to the closing quote. -/
theorem read?_chars (cs rest : List Char) :
    read? ((cs.map char).flatMap text ++ '\x22' :: rest) = some (cs.map char, rest) := by
  induction cs with
  | nil => simp [read?]
  | cons c cs ih =>
    simp only [List.map_cons, List.flatMap_cons, List.append_assoc]
    rw [text, read?_escape, ih]
    rfl

end TextUnit

/-! ## Values -/

namespace Json

open Numeral (IsInteger Ends)

/-- A text that holds characters only. -/
def IsString (units : List TextUnit) : Prop := ∃ cs : List Char, units = cs.map .char

mutual

/-- Whether the texts of a value hold characters only, and its numbers have a property. -/
def IsPlain (number : Numeral → Prop) : Json → Prop
  | null | bool _ => True
  | .number n => number n
  | string units => IsString units
  | array vs => AllPlain number vs
  | object ms => MembersPlain number ms

def AllPlain (number : Numeral → Prop) : List Json → Prop
  | [] => True
  | v :: vs => v.IsPlain number ∧ AllPlain number vs

def MembersPlain (number : Numeral → Prop) : List (List TextUnit × Json) → Prop
  | [] => True
  | (key, v) :: ms => IsString key ∧ v.IsPlain number ∧ MembersPlain number ms

end

private theorem skip_cons {c : Char} (visible : isBlank c = false) (cs : List Char) : skip (c :: cs) = c :: cs := by
  rw [skip, List.dropWhile_cons_of_neg (by simp [visible])]

/-- The text of an integer begins with a sign or a digit. -/
theorem head_ofInt (i : Int) :
    ∃ c cs, (Numeral.ofInt i).text = c :: cs ∧ ∀ d : Char, d ≠ '-' → d.isDigit = false → c ≠ d := by
  rw [Numeral.text_ofInt]
  by_cases negative : i < 0
  · exact ⟨'-', _, by rw [if_pos negative]; rfl, fun d other _ => other.symm⟩
  · rw [if_neg negative, List.nil_append]
    have digits := Numeral.isDigit_toDigits i.natAbs
    cases front : Nat.toDigits 10 i.natAbs with
    | nil => exact absurd front Nat.toDigits_ne_nil
    | cons c cs =>
      refine ⟨c, cs, rfl, ?_⟩
      rintro _ - other rfl
      simp [digits c (by simp [front])] at other

/-- The text of a value begins with a character that is no blank and does not end a list. -/
theorem head_text {v : Json} (plain : v.IsPlain IsInteger) :
    ∃ c cs, v.text = c :: cs ∧ isBlank c = false ∧ c ≠ ']' := by
  cases v with
  | null => exact ⟨_, _, rfl, by decide, by decide⟩
  | bool b => cases b <;> exact ⟨_, _, rfl, by decide, by decide⟩
  | number n =>
    obtain ⟨i, rfl⟩ := plain
    obtain ⟨c, cs, front, apart⟩ := head_ofInt i
    refine ⟨c, cs, front, ?_, apart ']' (by decide) (by decide)⟩
    simp [isBlank, apart]
  | string units => exact ⟨_, _, rfl, by decide, by decide⟩
  | array vs => cases vs <;> exact ⟨_, _, rfl, by decide, by decide⟩
  | object ms => rcases ms with _ | ⟨⟨key, v⟩, ms⟩ <;> exact ⟨_, _, rfl, by decide, by decide⟩

private theorem skip_text {v : Json} (plain : v.IsPlain IsInteger) (rest : List Char) :
    skip (v.text ++ rest) = v.text ++ rest := by
  obtain ⟨c, cs, front, visible, -⟩ := head_text plain
  rw [front, List.cons_append, skip_cons visible]

private theorem read?_quoted {units : List TextUnit} (chars : IsString units) (rest : List Char) :
    TextUnit.read? (units.flatMap TextUnit.text ++ ['\x22'] ++ rest) = some (units, rest) := by
  obtain ⟨cs, rfl⟩ := chars
  rw [List.append_assoc]
  exact TextUnit.read?_chars cs rest

private theorem readKey?_quoted {key : List TextUnit} (chars : IsString key) (rest : List Char) :
    readKey? (TextUnit.quoted key ++ ':' :: rest) = some (key, rest) := by
  rw [readKey?, TextUnit.quoted, List.cons_append, skip_cons (by decide)]
  simp only [read?_quoted chars, skip_cons (show isBlank ':' = false from rfl)]

private theorem readValue_number (steps : Nat) (i : Int) {rest : List Char} (ends : Ends rest) :
    readValue (steps + 1) ((Numeral.ofInt i).text ++ rest) = some (number (.ofInt i), rest) := by
  have read := Numeral.read?_ofInt i ends
  obtain ⟨c, cs, front, apart⟩ := head_ofInt i
  have visible : isBlank c = false := by simp [isBlank, apart]
  rw [front, List.cons_append] at read ⊢
  rw [readValue, skip_cons visible]
  split
  case h_7 => rw [read]; rfl
  -- No other value begins with a sign or a digit.
  all_goals
    rename_i same
    exact absurd (List.cons.inj same).1 (apart _ (by decide) (by decide))

private theorem readValue_string (steps : Nat) {units : List TextUnit} (chars : IsString units) (rest : List Char) :
    readValue (steps + 1) (TextUnit.quoted units ++ rest) = some (string units, rest) := by
  rw [readValue, TextUnit.quoted, List.cons_append, skip_cons (by decide)]
  simp only [read?_quoted chars, Option.map_some]

private theorem readValue_array (steps : Nat) {v : Json} (plain : v.IsPlain IsInteger) (cs : List Char) :
    readValue (steps + 1) ('[' :: (v.text ++ cs)) = (readElements steps (v.text ++ cs)).map fun r => (array r.1, r.2) := by
  obtain ⟨c, behind, front, visible, other⟩ := head_text plain
  rw [readValue, skip_cons (by decide)]
  simp only [skip_text plain]
  rw [front, List.cons_append]
  split
  · rename_i same
    exact absurd (List.cons.inj same).1 other
  · rfl

private theorem readValue_object (steps : Nat) (key : List TextUnit) (cs : List Char) :
    readValue (steps + 1) ('\x7b' :: (TextUnit.quoted key ++ cs)) =
      (readMembers steps (TextUnit.quoted key ++ cs)).map fun r => (object r.1, r.2) := by
  rw [readValue, skip_cons (by decide)]
  simp only [TextUnit.quoted, List.cons_append, skip_cons (show isBlank '\x22' = false from rfl)]
  rfl

/-- What may follow a number between others: a comma, or the end of the list. -/
theorem ends_elementsText (vs : List Json) (rest : List Char) : Ends (elementsText vs ++ rest) := by
  cases vs <;> exact Numeral.ends_cons _ (by decide)

private theorem ends_membersText (ms : List (List TextUnit × Json)) (rest : List Char) :
    Ends (membersText ms ++ rest) := by
  rcases ms with _ | ⟨⟨key, v⟩, ms⟩ <;> exact Numeral.ends_cons _ (by decide)

mutual

/-- A value with integers only is read back from its text, given twice as many steps as that has characters: a list takes
    two steps and its brackets are two characters, and each further element takes one step and a comma. -/
theorem readValue_text : ∀ {v : Json}, v.IsPlain IsInteger → ∀ (steps : Nat) (rest : List Char),
    2 * v.text.length ≤ steps → Ends rest → readValue steps (v.text ++ rest) = some (v, rest)
  | v, plain, 0, rest, enough, _ => by
    obtain ⟨c, cs, front, -⟩ := head_text plain
    simp [front] at enough
  | null, _, steps + 1, rest, _, _ => rfl
  | bool b, _, steps + 1, rest, _, _ => by cases b <;> rfl
  | number n, plain, steps + 1, rest, _, ends => by
    obtain ⟨i, rfl⟩ := plain
    exact readValue_number steps i ends
  | string units, plain, steps + 1, rest, _, _ => readValue_string steps plain rest
  | array [], _, steps + 1, rest, _, _ => rfl
  | array (v :: vs), plain, steps + 1, rest, enough, _ => by
    simp only [text, List.length_cons, List.length_append] at enough
    have elements := readElements_text plain steps rest (by omega)
    rw [text, List.cons_append, List.append_assoc, readValue_array steps plain.1, elements]
    rfl
  | object [], _, steps + 1, rest, _, _ => rfl
  | object ((key, v) :: ms), plain, steps + 1, rest, enough, _ => by
    simp only [text, List.length_cons, List.length_append] at enough
    have members := readMembers_text plain steps rest (by omega)
    rw [text, List.cons_append, List.append_assoc, readValue_object, List.cons_append, List.append_assoc, members]
    rfl

private theorem readElements_text : ∀ {v : Json} {vs : List Json}, AllPlain IsInteger (v :: vs) →
    ∀ (steps : Nat) (rest : List Char), 2 * (v.text.length + (elementsText vs).length) ≤ steps →
    readElements steps (v.text ++ (elementsText vs ++ rest)) = some (v :: vs, rest)
  | v, vs, plain, 0, rest, enough => by
    obtain ⟨c, cs, front, -⟩ := head_text plain.1
    simp only [front, List.length_cons] at enough
    omega
  | v, [], plain, steps + 1, rest, enough => by
    simp only [elementsText, List.length_singleton] at enough
    have first := readValue_text plain.1 steps _ (by omega) (ends_elementsText [] rest)
    rw [readElements, first, elementsText, List.singleton_append]
    simp only [skip_cons (show isBlank ']' = false from rfl)]
  | v, w :: ws, plain, steps + 1, rest, enough => by
    simp only [elementsText, List.length_cons, List.length_append] at enough
    have first := readValue_text plain.1 steps _ (by omega) (ends_elementsText (w :: ws) rest)
    have others := readElements_text plain.2 steps rest (by omega)
    rw [readElements, first, elementsText, List.cons_append, List.append_assoc]
    simp only [skip_cons (show isBlank ',' = false from rfl), others, Option.map_some]

private theorem readMembers_text : ∀ {key : List TextUnit} {v : Json} {ms : List (List TextUnit × Json)},
    MembersPlain IsInteger ((key, v) :: ms) → ∀ (steps : Nat) (rest : List Char),
    2 * (v.text.length + (membersText ms).length) ≤ steps →
    readMembers steps (TextUnit.quoted key ++ ':' :: (v.text ++ (membersText ms ++ rest))) = some ((key, v) :: ms, rest)
  | key, v, ms, plain, 0, rest, enough => by
    obtain ⟨c, cs, front, -⟩ := head_text plain.2.1
    simp only [front, List.length_cons] at enough
    omega
  | key, v, [], plain, steps + 1, rest, enough => by
    simp only [membersText, List.length_singleton] at enough
    have first := readValue_text plain.2.1 steps _ (by omega) (ends_membersText [] rest)
    rw [readMembers, readKey?_quoted plain.1]
    simp only [first]
    simp only [membersText, List.singleton_append, skip_cons (show isBlank '\x7d' = false from rfl)]
  | key, v, (key', w) :: ms, plain, steps + 1, rest, enough => by
    simp only [membersText, List.length_cons, List.length_append] at enough
    have first := readValue_text plain.2.1 steps _ (by omega) (ends_membersText ((key', w) :: ms) rest)
    have others := readMembers_text plain.2.2 steps rest (by omega)
    rw [readMembers, readKey?_quoted plain.1]
    simp only [first]
    simp only [membersText, List.cons_append, List.append_assoc, skip_cons (show isBlank ',' = false from rfl), others,
      Option.map_some]

end

/-- A value with integers only is read back from its whole text. -/
theorem parse?_text {v : Json} (plain : v.IsPlain IsInteger) : parse? v.text = some v := by
  have read := readValue_text plain (2 * v.text.length + 1) [] (by omega) Numeral.ends_nil
  rw [List.append_nil] at read
  rw [parse?, read]
  rfl

end Json

/-- A number that is written with digits. -/
structure Numeral.IsDecimal (n : Numeral) : Prop where
  whole : ∀ c ∈ n.whole, c.isDigit = true
  fraction : ∀ c ∈ n.fraction, c.isDigit = true
  exponent : ∀ e ∈ n.exponent, ∀ c ∈ e.2, c.isDigit = true

namespace Json

/-- No character of a text is a control character. -/
def IsVisible (cs : List Char) : Prop := ∀ c ∈ cs, 32 ≤ c.toNat

instance (cs : List Char) : Decidable (IsVisible cs) := List.decidableBAll _ cs

@[simp] theorem isVisible_cons {c : Char} {cs : List Char} : IsVisible (c :: cs) ↔ 32 ≤ c.toNat ∧ IsVisible cs :=
  List.forall_mem_cons

@[simp] theorem isVisible_append {front back : List Char} : IsVisible (front ++ back) ↔ IsVisible front ∧ IsVisible back :=
  List.forall_mem_append

private theorem isVisible_digits {cs : List Char} (digits : ∀ c ∈ cs, c.isDigit = true) : IsVisible cs := by
  intro c member
  have digit := digits c member
  simp only [Char.isDigit, Bool.and_eq_true, decide_eq_true_eq, ge_iff_le, UInt32.le_iff_toNat_le] at digit
  exact Nat.le_trans (by decide) digit.1

private theorem isVisible_number {n : Numeral} (decimal : n.IsDecimal) : IsVisible n.text := by
  have whole := isVisible_digits decimal.whole
  have fraction := isVisible_digits decimal.fraction
  rw [Numeral.text, isVisible_append, isVisible_append, isVisible_append]
  refine ⟨⟨⟨by split <;> decide, whole⟩, ?_⟩, ?_⟩
  · split
    · decide
    · exact isVisible_cons.mpr ⟨by decide, fraction⟩
  · cases exponent : n.exponent with
    | none => decide
    | some e =>
      refine isVisible_cons.mpr ⟨by decide, isVisible_cons.mpr ⟨?_, isVisible_digits (decimal.exponent e exponent)⟩⟩
      cases e.1 <;> decide

private theorem isVisible_codeText (code : Nat) : IsVisible (TextUnit.codeText code) := by
  have digit : ∀ d < 16, 32 ≤ (Nat.digitChar d).toNat := by decide
  have visible (n : Nat) : 32 ≤ (Nat.digitChar (n % 16)).toNat := digit _ (Nat.mod_lt _ (by decide))
  simp only [TextUnit.codeText, isVisible_cons, visible, true_and]
  decide

private theorem isVisible_escape (c : Char) : IsVisible (TextUnit.escape c) := by
  unfold TextUnit.escape
  split
  case h_8 =>
    by_cases small : c.toNat < 32
    · rw [if_pos small]
      exact isVisible_codeText c.toNat
    · rw [if_neg small, isVisible_cons]
      exact ⟨Nat.le_of_not_lt small, nofun⟩
  all_goals decide

private theorem isVisible_quoted {units : List TextUnit} (chars : IsString units) :
    IsVisible (TextUnit.quoted units) := by
  obtain ⟨cs, rfl⟩ := chars
  rw [TextUnit.quoted, isVisible_cons, isVisible_append]
  refine ⟨by decide, ?_, by decide⟩
  intro d member
  obtain ⟨u, here, inside⟩ := List.mem_flatMap.mp member
  obtain ⟨c, -, rfl⟩ := List.mem_map.mp here
  exact isVisible_escape c d inside

mutual

/-- The text of a plain value has no control characters: those in its strings are escaped. -/
theorem isVisible_text : ∀ {v : Json}, v.IsPlain Numeral.IsDecimal → IsVisible v.text
  | null, _ => by decide
  | bool b, _ => by cases b <;> decide
  | number n, plain => isVisible_number plain
  | string units, plain => isVisible_quoted plain
  | array [], _ => by decide
  | array (v :: vs), plain => by
    rw [text, isVisible_cons, isVisible_append]
    exact ⟨by decide, isVisible_text plain.1, isVisible_elementsText plain.2⟩
  | object [], _ => by decide
  | object ((key, v) :: ms), plain => by
    rw [text, isVisible_cons, isVisible_append, isVisible_cons, isVisible_append]
    exact ⟨by decide, isVisible_quoted plain.1, by decide, isVisible_text plain.2.1, isVisible_membersText plain.2.2⟩

private theorem isVisible_elementsText : ∀ {vs : List Json}, AllPlain Numeral.IsDecimal vs → IsVisible (elementsText vs)
  | [], _ => by decide
  | v :: vs, plain => by
    rw [elementsText, isVisible_cons, isVisible_append]
    exact ⟨by decide, isVisible_text plain.1, isVisible_elementsText plain.2⟩

private theorem isVisible_membersText : ∀ {ms : List (List TextUnit × Json)}, MembersPlain Numeral.IsDecimal ms →
    IsVisible (membersText ms)
  | [], _ => by decide
  | (key, v) :: ms, plain => by
    rw [membersText, isVisible_cons, isVisible_append, isVisible_cons, isVisible_append]
    exact ⟨by decide, isVisible_quoted plain.1, by decide, isVisible_text plain.2.1, isVisible_membersText plain.2.2⟩

end

end Json

end OpenSound
