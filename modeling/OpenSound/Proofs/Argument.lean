import OpenSound.Proofs.Json.Packet
import OpenSound.Proofs.Number.Integer
import OpenSound.Proofs.TimeTag

/-!
# Arguments as text

Every argument but a floating point number is read back from its tag, a colon and the text of its value, as far as it has
such a text: a blob has one if it is the bytes of a text, and a time tag if it is canonical. Behind the tags of integers
just the texts of integers in their range are taken, and what is refused is refused for its tag only if its first
character is none.
-/

namespace OpenSound

namespace Argument

/-- A tag, a colon and the text of a value. -/
def tagged (tag : Char) (v : String) : String := String.singleton tag ++ ":" ++ v

private theorem toList_tagged (tag : Char) (v : String) : (tagged tag v).toList = tag :: ':' :: v.toList := by
  simp [tagged]

private theorem parse_tagged (tag : Char) (v : String) : parse (tagged tag v) = ofText tag v := by
  rw [parse, toList_tagged]
  exact congrArg (ofText tag) (String.ofList_toList)

private theorem parse_singleton (tag : Char) : parse (String.singleton tag) = ofText tag "" := by
  rw [parse, String.toList_singleton]

theorem readInteger_eq_ok_iff {range : IntegerRange} {tag : Char} {v : String} {build : Int → Argument} {a : Argument} :
    readInteger range tag v build = .ok a ↔ ∃ n, range.read v.toList = .ok n ∧ a = build n := by
  unfold readInteger
  cases range.read v.toList <;> simp [eq_comm]

/-- The texts that are taken behind a tag are those of the integers from a least one on and below another one, and each
    gives the argument of just that integer. -/
def TakesIntegers {α : Type} (tag : Char) (isSigned : Bool) (least beyond : Int) (toInt : α → Int)
    (build : α → Argument) : Prop :=
  ∀ v a, parse (tagged tag v) = .ok a ↔
    ∃ n, IntegerText isSigned v.toList n ∧ least ≤ n ∧ n < beyond ∧ ∃ x, toInt x = n ∧ a = build x

/-- A tag takes the integers of its range if these are just what its values are. -/
theorem takesIntegers_of_reads {α : Type} {tag : Char} (range : IntegerRange) {ofInt : Int → α} {toInt : α → Int}
    {build : α → Argument} (reads : ∀ v, ofText tag v = readInteger range tag v fun n => build (ofInt n))
    (least : range.least ≤ 0) (greatest : 0 ≤ range.greatest)
    (exact : ∀ n, range.contains n = true → toInt (ofInt n) = n) (back : ∀ x, ofInt (toInt x) = x) :
    TakesIntegers tag (decide (range.least < 0)) range.least (range.greatest + 1) toInt build := by
  intro v a
  rw [parse_tagged, reads, readInteger_eq_ok_iff]
  refine exists_congr fun n => ?_
  rw [IntegerRange.read_iff least greatest, IntegerRange.contains_iff, Int.lt_add_one_iff, and_assoc, and_assoc]
  refine and_congr_right fun _ => and_congr_right fun low => and_congr_right fun high => ?_
  constructor
  · rintro rfl
    exact ⟨ofInt n, exact n ((IntegerRange.contains_iff _ _).mpr ⟨low, high⟩), rfl⟩
  · rintro ⟨x, rfl, rfl⟩
    rw [back]

private theorem takesIntegers_int32 : TakesIntegers 'i' true (-(Nat.pow 2 31 : Int))
    (Nat.pow 2 31) Int32.toInt int32 := by
  refine takesIntegers_of_reads (.signed 32) (fun _ => rfl) (by decide) (by decide) (fun n inside => ?_) Int32.ofInt_toInt
  obtain ⟨low, high⟩ := IntegerRange.contains_signed.mp inside
  exact Int32.toInt_ofInt_of_le low high

private theorem takesIntegers_int64 : TakesIntegers 'h' true (-(Nat.pow 2 63 : Int))
    (Nat.pow 2 63) Int64.toInt int64 := by
  refine takesIntegers_of_reads (.signed 64) (fun _ => rfl) (by decide) (by decide) (fun n inside => ?_) Int64.ofInt_toInt
  obtain ⟨low, high⟩ := IntegerRange.contains_signed.mp inside
  exact Int64.toInt_ofInt_of_le low high

private theorem takesIntegers_timeTag :
    TakesIntegers 't' false 0 (Nat.pow 2 64) (fun raw : UInt64 => raw.toNat) fun raw => timeTag (.ofRaw raw) := by
  refine takesIntegers_of_reads (.unsigned 64) (fun _ => rfl) (by decide) (by decide) (fun n inside => ?_)
    fun raw => by simp
  obtain ⟨n, rfl⟩ := Int.eq_ofNat_of_zero_le ((IntegerRange.contains_iff _ _).mp inside).1
  rw [Int.toNat_natCast, UInt64.toNat_ofNat_of_lt' (IntegerRange.contains_unsigned.mp inside)]

/-- The texts of values: of an integer the decimal one, of a string the string itself, of a blob the text whose bytes it
    is, of a canonical time tag the decimal text of its 64-bit value, and of what has no payload any text. -/
inductive ValueText : Argument → String → Prop
  | nil (v : String) : ValueText nil v
  | bool (b : Bool) (v : String) : ValueText (bool b) v
  | int32 (i : Int32) : ValueText (int32 i) (toString i.toInt)
  | int64 (i : Int64) : ValueText (int64 i) (toString i.toInt)
  | string (s : String) : ValueText (string s) s
  | blob (s : String) : ValueText (blob (Utf8.encode s)) s
  | timeTag {t : TimeTag} (canonical : t.IsCanonical) : ValueText (timeTag t) (toString t.toRaw.toNat)

/-- Which arguments have a text. -/
theorem exists_valueText_iff (a : Argument) : (∃ v, ValueText a v) ↔
    ¬a.IsFloat ∧ (∀ data, a = .blob data → ∃ s, Utf8.decode data = .ok s) ∧ ∀ t, a = .timeTag t → t.IsCanonical := by
  constructor
  · rintro ⟨v, text⟩
    cases text with
    | blob => exact ⟨id, by rintro _ ⟨⟩; exact ⟨v, Utf8.decode_encode v⟩, nofun⟩
    | timeTag canonical => exact ⟨id, nofun, by rintro _ ⟨⟩; exact canonical⟩
    | _ => exact ⟨id, nofun, nofun⟩
  · rintro ⟨exact, valid, canonical⟩
    cases a with
    | nil => exact ⟨"", .nil ""⟩
    | bool b => exact ⟨"", .bool b ""⟩
    | int32 i => exact ⟨_, .int32 i⟩
    | int64 i => exact ⟨_, .int64 i⟩
    | string s => exact ⟨s, .string s⟩
    | float32 bits | float64 bits => exact absurd trivial exact
    | timeTag t => exact ⟨_, .timeTag (canonical t rfl)⟩
    | blob data =>
      obtain ⟨s, read⟩ := valid data rfl
      exact ⟨s, Utf8.encode_of_decode read ▸ .blob s⟩

/-- An argument is read back from its tag and the text of its value. -/
theorem ValueText.parse_eq {a : Argument} {v : String} (text : ValueText a v) : parse (tagged a.tag v) = .ok a := by
  cases text with
  | nil => exact parse_tagged 'N' v
  | bool b => cases b <;> exact parse_tagged _ v
  | int32 i => exact (takesIntegers_int32 _ _).mpr ⟨_, .of_toString fun _ => rfl, i.le_toInt, i.toInt_lt, i, rfl, rfl⟩
  | int64 i => exact (takesIntegers_int64 _ _).mpr ⟨_, .of_toString fun _ => rfl, i.le_toInt, i.toInt_lt, i, rfl, rfl⟩
  | string => exact parse_tagged 's' v
  | blob => exact parse_tagged 'b' v
  | @timeTag t canonical =>
    have below : (t.toRaw.toNat : Int) < Nat.pow 2 64 := Int.ofNat_lt.mpr t.toRaw.toNat_lt
    have nonneg : ¬(t.toRaw.toNat : Int) < 0 := Int.not_lt.mpr (Int.natCast_nonneg _)
    refine (takesIntegers_timeTag _ _).mpr ⟨t.toRaw.toNat, ?_, Int.natCast_nonneg _, below, t.toRaw, rfl, ?_⟩
    · exact IntegerText.of_toString (i := (t.toRaw.toNat : Int)) fun negative => absurd negative nonneg
    · exact congrArg Argument.timeTag ((TimeTag.ofRaw_toRaw_iff t).mpr canonical).symm

/-- A text that is one character, alone or in front of a colon and anything. -/
def Begins (c : Char) (text : String) : Prop := text = String.singleton c ∨ ∃ v, text = tagged c v

/-- A text whose first character is no tag, where a tag should stand. -/
def NamesNoType (text : String) : Prop := ∃ c, (∀ a : Argument, a.tag ≠ c) ∧ Begins c text

private theorem Begins.head?_eq {c : Char} {text : String} (begins : Begins c text) : text.toList.head? = some c := by
  rcases begins with rfl | ⟨v, rfl⟩
  · simp
  · simp [toList_tagged]

private theorem Begins.exists_parse_eq {c : Char} {text : String} (begins : Begins c text) :
    ∃ v, parse text = ofText c v := by
  rcases begins with rfl | ⟨v, rfl⟩
  · exact ⟨"", parse_singleton c⟩
  · exact ⟨v, parse_tagged c v⟩

/-- Where no tag could stand the text is malformed. -/
theorem parse_of_not_begins {text : String} (shapeless : ∀ c, ¬Begins c text) :
    ∃ e : Error, parse text = .error e ∧ e.kind = .malformedArgument := by
  unfold parse
  split
  · exact ⟨_, rfl, rfl⟩
  · rename_i c alone
    exact absurd (.inl (String.toList_inj.mp (by simp [alone]))) (shapeless c)
  · rename_i c v before
    exact absurd (.inr ⟨String.ofList v, String.toList_inj.mp (by simp [before, toList_tagged])⟩) (shapeless c)
  · exact ⟨_, rfl, rfl⟩

private theorem kind_of_readInteger {range : IntegerRange} {tag : Char} {v : String} {build : Int → Argument}
    {e : Error}
    (failed : readInteger range tag v build = .error e) : e.kind = .malformedArgument := by
  unfold readInteger at failed
  split at failed <;> cases failed
  rfl

private theorem kind_of_readLiteral {format : BinaryFormat} {tag : Char} {v : String} {build : Nat → Argument}
    {e : Error}
    (failed : readLiteral format tag v build = .error e) : e.kind = .malformedArgument := by
  unfold readLiteral at failed
  split at failed <;> cases failed
  rfl

/-- A value is refused as malformed behind a tag, and as unsupported behind any other character. -/
theorem kind_of_ofText {tag : Char} {v : String} {e : Error} (failed : ofText tag v = .error e) :
    (∃ a : Argument, a.tag = tag) ∧ e.kind = .malformedArgument ∨
      (∀ a : Argument, a.tag ≠ tag) ∧ e.kind = .unsupportedType := by
  unfold ofText at failed
  -- Any text is a string and has bytes, and what has no payload ignores it: there nothing is refused.
  split at failed
  · cases failed
  · cases failed
  · cases failed
  · exact .inl ⟨⟨int32 0, rfl⟩, kind_of_readInteger failed⟩
  · exact .inl ⟨⟨float32 0, rfl⟩, kind_of_readLiteral failed⟩
  · cases failed
  · cases failed
  · exact .inl ⟨⟨int64 0, rfl⟩, kind_of_readInteger failed⟩
  · exact .inl ⟨⟨float64 0, rfl⟩, kind_of_readLiteral failed⟩
  · exact .inl ⟨⟨timeTag .immediate, rfl⟩, kind_of_readInteger failed⟩
  · cases failed
    refine .inr ⟨fun a => ?_, rfl⟩
    cases a with
    | bool b => cases b <;> simp_all [Argument.tag, eq_comm]
    | _ => simp_all [Argument.tag, eq_comm]

private theorem ofText_of_no_tag {tag : Char} (noTag : ∀ a : Argument, a.tag ≠ tag) (v : String) :
    ofText tag v = .error (.unsupportedTag tag) := by
  have apart (a : Argument) : tag ≠ a.tag := (noTag a).symm
  exact ofText.eq_11 tag v (apart nil) (apart (bool true)) (apart (bool false)) (apart (int32 0)) (apart (float32 0))
    (apart (string "")) (apart (blob [])) (apart (int64 0)) (apart (float64 0)) (apart (timeTag .immediate))

/-- A text is refused as unsupported exactly if it names no type, and as malformed otherwise. -/
theorem kind_of_parse {text : String} {e : Error} (failed : parse text = .error e) :
    NamesNoType text ∧ e.kind = .unsupportedType ∨ ¬NamesNoType text ∧ e.kind = .malformedArgument := by
  by_cases shaped : ∃ c, Begins c text
  · obtain ⟨c, begins⟩ := shaped
    obtain ⟨v, same⟩ := begins.exists_parse_eq
    rcases kind_of_ofText (same ▸ failed) with ⟨⟨a, rfl⟩, malformed⟩ | ⟨noTag, unsupported⟩
    · refine .inr ⟨?_, malformed⟩
      rintro ⟨d, noTag, other⟩
      exact noTag a (Option.some.inj (begins.head?_eq.symm.trans other.head?_eq))
    · exact .inl ⟨⟨c, noTag, begins⟩, unsupported⟩
  · obtain ⟨other, failed', malformed⟩ := parse_of_not_begins (not_exists.mp shaped)
    obtain rfl : e = other := Except.error.inj (failed.symm.trans failed')
    exact .inr ⟨fun ⟨c, _, begins⟩ => shaped ⟨c, begins⟩, malformed⟩

/-- An argument that is no floating point number is read back from its tag, a colon and the text of its value, and it has
    such a text unless it is a blob that is no UTF-8 or a time tag that is not canonical. Behind the tags of integers and
    time tags exactly the decimal texts of the integers in range are taken, and each gives its own integer. A text is
    refused as unsupported exactly if its first character is no tag, and stands alone or in front of a colon; every other
    text that is refused is malformed. -/
theorem texts_parse_back :
    (∀ a : Argument, (∃ v, ValueText a v) ↔
      ¬a.IsFloat ∧ (∀ data, a = .blob data → ∃ s, Utf8.decode data = .ok s) ∧ ∀ t, a = .timeTag t → t.IsCanonical) ∧
    (∀ a v, ValueText a v → parse (tagged a.tag v) = .ok a) ∧
    (∀ c, parse (String.singleton c) = parse (tagged c "")) ∧
    TakesIntegers 'i' true (-(Nat.pow 2 31 : Int)) (Nat.pow 2 31) Int32.toInt int32 ∧
    TakesIntegers 'h' true (-(Nat.pow 2 63 : Int)) (Nat.pow 2 63) Int64.toInt int64 ∧
    TakesIntegers 't' false 0 (Nat.pow 2 64) (fun raw : UInt64 => raw.toNat) (fun raw => timeTag (.ofRaw raw)) ∧
    (∀ text, NamesNoType text → ∃ e, parse text = .error e) ∧
    ∀ text e, parse text = .error e →
      NamesNoType text ∧ e.kind = .unsupportedType ∨ ¬NamesNoType text ∧ e.kind = .malformedArgument := by
  refine ⟨exists_valueText_iff, fun a v text => text.parse_eq, fun c => ?_, takesIntegers_int32, takesIntegers_int64,
    takesIntegers_timeTag, ?_, fun text e failed => kind_of_parse failed⟩
  · rw [parse_singleton, parse_tagged]
  · rintro text ⟨c, noTag, begins⟩
    obtain ⟨v, same⟩ := begins.exists_parse_eq
    exact ⟨_, same.trans (ofText_of_no_tag noTag v)⟩

/-- A string with colons, the bytes of a letter that is no ASCII, the least integer of 32 bits, the reserved value of a time
    tag and zeros behind a plus sign; the first integer that is too large; and a character of two bytes where a tag should
    stand. -/
theorem texts_parse_back_odd :
    parse "s: a::b\n" = .ok (.string " a::b\n") ∧ parse "b:é" = .ok (.blob [0xc3, 0xa9]) ∧
    parse "i:-2147483648" = .ok (.int32 (-2147483648)) ∧ parse "t:1" = .ok (.timeTag .immediate) ∧
    parse "h:+007" = .ok (.int64 7) ∧ (∀ a, parse "i:2147483648" ≠ .ok a) ∧
    ∃ e, parse "é:1" = .error e ∧ e.kind = .unsupportedType := by
  obtain ⟨-, back, -, takes32, takes64, -, refused, kind⟩ := texts_parse_back
  have sevens : IsDigits ['0', '0', '7'] := ⟨by decide, by simp⟩
  refine ⟨back _ _ (.string " a::b\n"), back _ _ (.blob "é"), back _ _ (.int32 (-2147483648)),
    back _ _ (.timeTag (t := .immediate) (by decide)), ?_, ?_, ?_⟩
  · exact (takes64 "+007" _).mpr ⟨7, .plus sevens, by decide, by decide, 7, rfl, rfl⟩
  · intro a accepted
    obtain ⟨n, text, -, small, -⟩ := (takes32 "2147483648" a).mp accepted
    rw [IntegerText.plain_iff (by decide) (by decide)] at text
    rw [text.2] at small
    exact absurd small (by decide)
  · have noTag (a : Argument) : a.tag ≠ 'é' := by
      cases a with
      | bool b => cases b <;> exact ne_of_beq_false rfl
      | _ => exact ne_of_beq_false rfl
    have names : NamesNoType "é:1" := ⟨'é', noTag, .inr ⟨"1", rfl⟩⟩
    obtain ⟨e, failed⟩ := refused _ names
    rcases kind _ e failed with ⟨-, unsupported⟩ | ⟨other, -⟩
    · exact ⟨e, failed, unsupported⟩
    · exact absurd names other

end Argument

end OpenSound
