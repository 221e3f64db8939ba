import OpenSound.Proofs.Wire.Arguments
import OpenSound.Proofs.Wire.Refusing
import OpenSound.Proofs.Wire.RoundTrip

/-!
# How far readers go

A reader only goes forward, and it is known how far. What it finds decides how many bytes it has taken, and these bytes
alone decide what it finds. Where it fails it has taken nothing, but for a blob's length, and the arguments in front of
the one that is bad. So the arguments for some tags can be read in two parts, the second from where the first ended.
-/

namespace OpenSound

open Wire

namespace Wire

/-- What a reader finds says how many bytes it has taken, and is found again with any other bytes behind those. -/
def Reader.Takes {ε α : Type} (read : Reader ε α) (size : α → Nat) : Prop :=
  ∀ bytes a rest, read bytes = (.ok a, rest) →
    ∃ front, front.length = size a ∧ bytes = front ++ rest ∧ ∀ rest', read (front ++ rest') = (.ok a, rest')

/-- The bytes that a reader is given say how many of them it has taken where it fails. -/
def Reader.FailsAfter {ε α : Type} (read : Reader ε α) (spent : List UInt8 → Nat) : Prop :=
  ∀ bytes e rest, read bytes = (.error e, rest) → rest = bytes.drop (spent bytes)

/-- Only a blob is begun before it fails: its length is taken, if it is there. -/
def spentOn (tag : Char) (bytes : List UInt8) : Nat := if tag = 'b' ∧ 4 ≤ bytes.length then 4 else 0

private theorem readNumber_takes (width : Nat) : (readNumber width).Takes fun _ => width := by
  intro bytes n rest read
  obtain ⟨bound, rfl⟩ := readNumber_iff.mp read
  exact ⟨_, bigEndian_length width n, rfl, fun rest' => readNumber_iff.mpr ⟨bound, rfl⟩⟩

private theorem readNumber_short {width : Nat} {bytes rest : List UInt8} {fault : DataFault}
    (failed : readNumber width bytes = (.error fault, rest)) : bytes.length < width ∧ rest = bytes := by
  unfold readNumber at failed
  split_ifs at failed with short
  · cases failed
    exact ⟨by rw [List.length_take] at short; omega, rfl⟩
  · cases failed

private theorem readNumber_failsAfter (width : Nat) : (readNumber width).FailsAfter fun _ => 0 :=
  fun _ _ _ failed => (readNumber_short failed).2

private theorem readString_takes : readString.Takes fun s => (stringBytes s).length := by
  intro bytes s rest read
  obtain ⟨front, form, rfl⟩ := readString_iff.mp read
  refine ⟨front, ?_, rfl, fun rest' => readString_iff.mpr ⟨front, form, rfl⟩⟩
  rw [(stringForm_iff.mp form).2]

private theorem readString_failsAfter : readString.FailsAfter fun _ => 0 := by
  intro bytes fault rest failed
  unfold readString at failed
  dsimp only at failed
  split_ifs at failed
  · exact (Prod.mk.inj failed).2.symm
  · exact (Prod.mk.inj failed).2.symm
  · exact (Prod.mk.inj failed).2.symm
  · split at failed
    · exact (Prod.mk.inj failed).2.symm
    · cases failed

private theorem readBlob_takes : readBlob.Takes fun data => (Argument.blob data).wire.length := by
  intro bytes data rest read
  obtain ⟨front, form, rfl⟩ := readBlob_iff.mp read
  have payload : Payload (.blob data) front := form
  exact ⟨front, payload.wire_length.symm, rfl, fun rest' => readBlob_iff.mpr ⟨front, form, rfl⟩⟩

private theorem readBlob_failsAfter : readBlob.FailsAfter fun bytes => if bytes.length < 4 then 0 else 4 := by
  intro bytes fault rest failed
  unfold readBlob at failed
  split at failed
  · rename_i number
    cases failed
    obtain ⟨short, rfl⟩ := readNumber_short number
    dsimp only
    rw [if_pos short, List.drop_zero]
  · rename_i length behind number
    obtain ⟨-, rfl⟩ := readNumber_iff.mp number
    split_ifs at failed
    · cases failed
      dsimp only
      rw [if_neg (by simp), List.drop_left' (bigEndian_length 4 length)]
    · cases failed

private theorem readTimeTag_takes : readTimeTag.Takes fun _ => 8 := by
  intro bytes t rest read
  obtain ⟨_, ⟨raw, rfl, rfl⟩, rfl⟩ := readTimeTag_iff.mp read
  exact ⟨_, bigEndian_length 8 _, rfl, fun rest' => readTimeTag_iff.mpr ⟨_, ⟨raw, rfl, rfl⟩, rfl⟩⟩

private theorem readTimeTag_failsAfter : readTimeTag.FailsAfter fun _ => 0 := by
  intro bytes fault rest failed
  unfold readTimeTag at failed
  split at failed
  · rename_i number
    cases failed
    exact readNumber_failsAfter 8 _ _ _ number
  · cases failed

private theorem readArgument_takes (tag : Char) : (readArgument tag).Takes fun a => a.wire.length := by
  intro bytes a rest read
  obtain ⟨rfl, front, payload, rfl⟩ := readArgument_iff.mp read
  exact ⟨front, payload.wire_length.symm, rfl, fun rest' => readArgument_iff.mpr ⟨rfl, front, payload, rfl⟩⟩

private theorem readArgument_failsAfter (tag : Char) : (readArgument tag).FailsAfter (spentOn tag) := by
  intro bytes fault rest failed
  have inner {α : Type} {build : α → Argument} {read : Reader DataFault α} {spent : List UInt8 → Nat}
      (fails : read.FailsAfter spent) (failed : asArgument build (read bytes) = (.error fault, rest)) :
      rest = bytes.drop (spent bytes) := by
    obtain ⟨reason, failed, -⟩ := asArgument_error_iff.mp failed
    exact fails _ _ _ failed
  unfold readArgument at failed
  split at failed
  · cases failed
  · cases failed
  · cases failed
  · exact inner (readNumber_failsAfter 4) failed
  · exact inner (readNumber_failsAfter 4) failed
  · exact inner readString_failsAfter failed
  · rw [inner readBlob_failsAfter failed]
    by_cases short : bytes.length < 4
    · rw [if_pos short, spentOn, if_neg (by omega)]
    · rw [if_neg short, spentOn, if_pos ⟨rfl, Nat.le_of_not_lt short⟩]
  · exact inner (readNumber_failsAfter 8) failed
  · exact inner (readNumber_failsAfter 8) failed
  · exact inner readTimeTag_failsAfter failed
  · rename_i notBlob _ _ _
    cases failed
    rw [spentOn, if_neg fun both => notBlob both.1, List.drop_zero]

private theorem readArguments_takes (tags : String) :
    (readArguments tags).Takes fun as => (as.map fun a => a.wire.length).sum := by
  intro bytes as rest read
  obtain ⟨rfl, front, payloads, rfl⟩ := readArguments_iff.mp read
  refine ⟨front, ?_, rfl, fun rest' => readArguments_iff.mpr ⟨rfl, front, payloads, rfl⟩⟩
  rw [← payloads.wire_length, List.length_flatMap]

/-- Where a list of arguments fails, those in front of the bad one have been taken, and what that one has been begun
    with. -/
theorem readArguments_spent {tags : String} {bytes rest : List UInt8} {e : Error}
    (failed : readArguments tags bytes = (.error e, rest)) :
    (tags.toList.head? ≠ some ',' ∧ rest = bytes) ∨ ∃ as tag more fault behind,
      tags = String.ofList (',' :: as.map Argument.tag ++ tag :: more) ∧
        readArguments (String.ofList (',' :: as.map Argument.tag)) bytes = (.ok as, behind) ∧
        (readArgument tag behind).1 = .error fault ∧ e = .argument as.length tag fault ∧
        rest = behind.drop (spentOn tag behind) := by
  obtain ⟨bare, -, rfl⟩ | ⟨_, _, tag, fault, spelled, ⟨as, payload, more, behind, rfl, rfl, payloads, rfl, bad⟩, rfl⟩ :=
    readArguments_error_iff.mp failed
  · exact .inl ⟨bare, rfl⟩
  · have front : readArguments (String.ofList (',' :: as.map Argument.tag)) (payload ++ behind) = (.ok as, behind) :=
      readArguments_iff.mpr ⟨rfl, payload, payloads, rfl⟩
    refine .inr ⟨as, tag, more, fault, behind, ?_, front, by rw [bad], rfl, readArgument_failsAfter tag _ _ _ bad⟩
    rw [← String.ofList_toList (s := tags), spelled, List.cons_append]

private theorem readArguments_suffix (tags : String) (bytes : List UInt8) : (readArguments tags bytes).2 <:+ bytes := by
  cases outcome : readArguments tags bytes with
  | mk found rest =>
    cases found with
    | ok as =>
      obtain ⟨front, -, rfl, -⟩ := readArguments_takes tags _ _ _ outcome
      exact List.suffix_append front rest
    | error e =>
      obtain ⟨-, rfl⟩ | ⟨as, tag, _, _, behind, -, front, -, -, rfl⟩ := readArguments_spent outcome
      · exact List.suffix_rfl
      · obtain ⟨taken, -, rfl, -⟩ := readArguments_takes _ _ _ _ front
        exact (List.drop_suffix _ behind).trans (List.suffix_append taken behind)

private theorem payloads_append {as bs : List Argument} {bytes : List UInt8} :
    Payloads (as ++ bs) bytes ↔ ∃ front back, Payloads as front ∧ Payloads bs back ∧ bytes = front ++ back := by
  induction as generalizing bytes with
  | nil =>
    constructor
    · intro payloads
      exact ⟨[], bytes, .nil, payloads, rfl⟩
    · rintro ⟨_, back, none, payloads, rfl⟩
      cases none
      exact payloads
  | cons a as ih =>
    rw [List.cons_append]
    constructor
    · intro payloads
      cases payloads with
      | cons payload others =>
        obtain ⟨front, back, left, right, rfl⟩ := ih.mp others
        exact ⟨_, back, .cons payload left, right, (List.append_assoc ..).symm⟩
    · rintro ⟨_, back, payloads, right, rfl⟩
      cases payloads with
      | cons payload left =>
        rw [List.append_assoc]
        exact .cons payload (ih.mpr ⟨_, back, left, right, rfl⟩)

/-- The arguments for tags in two parts are those for the first part, and behind these those for the second. -/
theorem readArguments_append_iff {front back : String} {bytes rest : List UInt8} {as : List Argument} :
    readArguments ("," ++ front ++ back) bytes = (.ok as, rest) ↔
      ∃ left middle right, readArguments ("," ++ front) bytes = (.ok left, middle) ∧
        readArguments ("," ++ back) middle = (.ok right, rest) ∧ as = left ++ right := by
  have named {tags : String} {as : List Argument} :
      "," ++ tags = String.ofList (',' :: as.map Argument.tag) ↔ as.map Argument.tag = tags.toList := by
    rw [← String.toList_inj, String.toList_append, String.toList_ofList]
    simp [eq_comm]
  simp only [String.append_assoc, readArguments_iff, named, String.toList_append, List.map_eq_append_iff]
  constructor
  · rintro ⟨⟨left, right, rfl, leftTags, rightTags⟩, _, payloads, rfl⟩
    obtain ⟨taken, behind, leftPayloads, rightPayloads, rfl⟩ := payloads_append.mp payloads
    exact ⟨left, behind ++ rest, right, ⟨leftTags, taken, leftPayloads, List.append_assoc ..⟩,
      ⟨rightTags, behind, rightPayloads, rfl⟩, rfl⟩
  · rintro ⟨left, _, right, ⟨leftTags, taken, leftPayloads, rfl⟩, ⟨rightTags, behind, rightPayloads, rfl⟩, rfl⟩
    exact ⟨⟨left, right, rfl, leftTags, rightTags⟩, taken ++ behind,
      payloads_append.mpr ⟨taken, behind, leftPayloads, rightPayloads, rfl⟩, (List.append_assoc ..).symm⟩

/-- A string without a zero is written if it is short enough. -/
theorem writeString_appends_of_clean {s : String} (clean : 0 ∉ Utf8.encode s) :
    (writeString s).Appends (FitsString s) (stringBytes s) := by
  intro buffer written
  rw [writeString_appends, IsWritableString, and_iff_left clean, FitsString]

private theorem writeString_of_readString {s : String} {bytes rest : List UInt8}
    (read : readString bytes = (.ok s, rest)) :
    bytes = stringBytes s ++ rest ∧ (writeString s).Appends (FitsString s) (stringBytes s) := by
  obtain ⟨front, form, rfl⟩ := readString_iff.mp read
  obtain ⟨clean, rfl⟩ := stringForm_iff.mp form
  exact ⟨rfl, writeString_appends_of_clean clean⟩

private theorem writeArgument_of_readArgument {tag : Char} {a : Argument} {bytes rest : List UInt8}
    (read : readArgument tag bytes = (.ok a, rest)) : (writeArgument a).Appends a.Fits a.wire := by
  obtain ⟨rfl, front, payload, rfl⟩ := readArgument_iff.mp read
  cases a with
  | string s => exact writeString_appends_of_clean payload.1
  | _ => exact writeArgument_appends _

/-- Every reader goes forward by a known amount: by as many bytes as are written of what it finds, and where it fails by
    nothing, or by the length of a blob. A list of arguments that fails has taken those in front of the bad one. Tags in
    two parts are read one part after the other. -/
theorem readers_advance (tags : String) (bytes rest : List UInt8) :
    (∀ width, (readNumber width).Takes (fun _ => width) ∧ (readNumber width).FailsAfter fun _ => 0) ∧
    (readString.Takes (fun s => (stringBytes s).length) ∧ readString.FailsAfter fun _ => 0) ∧
    (∀ s, readString bytes = (.ok s, rest) →
      bytes = stringBytes s ++ rest ∧ (writeString s).Appends (FitsString s) (stringBytes s)) ∧
    (readBlob.Takes (fun data => (Argument.blob data).wire.length) ∧
      readBlob.FailsAfter fun bytes => if bytes.length < 4 then 0 else 4) ∧
    (∀ data, (writeBlob data).Appends (data.length ≤ maxBlob) (Argument.blob data).wire) ∧
    (readTimeTag.Takes (fun _ => 8) ∧ readTimeTag.FailsAfter fun _ => 0) ∧
    (∀ tag, (readArgument tag).Takes (fun a => a.wire.length) ∧ (readArgument tag).FailsAfter (spentOn tag)) ∧
    (∀ tag a, readArgument tag bytes = (.ok a, rest) → (writeArgument a).Appends a.Fits a.wire) ∧
    (readArguments tags).Takes (fun as => (as.map fun a => a.wire.length).sum) ∧
    (∀ e, readArguments tags bytes = (.error e, rest) →
      (tags.toList.head? ≠ some ',' ∧ rest = bytes) ∨ ∃ as tag more fault behind,
        tags = String.ofList (',' :: as.map Argument.tag ++ tag :: more) ∧
          readArguments (String.ofList (',' :: as.map Argument.tag)) bytes = (.ok as, behind) ∧
          (readArgument tag behind).1 = .error fault ∧ e = .argument as.length tag fault ∧
          rest = behind.drop (spentOn tag behind)) ∧
    (readArguments tags bytes).2 <:+ bytes ∧
    ∀ front back as, readArguments ("," ++ front ++ back) bytes = (.ok as, rest) ↔
      ∃ left middle right, readArguments ("," ++ front) bytes = (.ok left, middle) ∧
        readArguments ("," ++ back) middle = (.ok right, rest) ∧ as = left ++ right :=
  ⟨fun width => ⟨readNumber_takes width, readNumber_failsAfter width⟩, ⟨readString_takes, readString_failsAfter⟩,
    fun _ => writeString_of_readString, ⟨readBlob_takes, readBlob_failsAfter⟩,
    fun data => writeArgument_appends (.blob data), ⟨readTimeTag_takes, readTimeTag_failsAfter⟩,
    fun tag => ⟨readArgument_takes tag, readArgument_failsAfter tag⟩, fun _ _ => writeArgument_of_readArgument,
    readArguments_takes tags, fun _ => readArguments_spent, readArguments_suffix tags bytes,
    fun _ _ _ => readArguments_append_iff⟩

/-- Behind a number and a string, a blob that is too short: its length has been taken as well. -/
theorem readers_advance_short_blob :
    let bytes := [0, 0, 0, 7] ++ stringBytes "A" ++ [0, 0, 0, 9, 1]
    readArguments ",isbN" bytes = (.error (.argument 2 'b' (.data (.blobTruncated 9 1))), [1]) ∧
      ∃ as behind, as.length = 2 ∧ readArguments (String.ofList (',' :: as.map Argument.tag)) bytes = (.ok as, behind) ∧
        [1] = behind.drop (spentOn 'b' behind) := by
  intro bytes
  have failed : readArguments ",isbN" bytes = (.error (.argument 2 'b' (.data (.blobTruncated 9 1))), [1]) := by
    decide
  obtain ⟨-, -, -, -, -, -, -, -, -, spent, -⟩ := readers_advance ",isbN" bytes [1]
  obtain ⟨bare, -⟩ | ⟨as, tag, more, fault, behind, -, front, -, error, left⟩ := spent _ failed
  · exact absurd (by decide) bare
  · obtain ⟨count, rfl, -⟩ := Error.argument.inj error
    exact ⟨failed, as, behind, count.symm, front, left⟩

end Wire

end OpenSound
