import OpenSound.Proofs.Wire.Values

/-!
# The first bad argument

Arguments are read up to the first one whose tag or payload is bad, and that one is named by the error, whatever tags
follow. If it is not just too short, neither do the bytes behind it matter.
-/

namespace OpenSound

/-- Whether a fault only says that the bytes end too early. -/
def DataFault.isShortage : DataFault → Bool
  | .unterminated | .paddingTruncated .. | .blobTruncated .. | .endOfData .. => true
  | .nulInString _ | .dirtyPadding | .notUtf8 _ => false

/-- Whether an argument is bad only because the bytes end too early. -/
def ArgumentFault.isShortage : ArgumentFault → Bool
  | .data fault => fault.isShortage
  | .unsupportedTag => false

namespace Wire

private theorem readNumber_error {width : Nat} {bytes left : List UInt8} {fault : DataFault}
    (failed : readNumber width bytes = (.error fault, left)) : fault.isShortage = true := by
  unfold readNumber at failed
  split at failed <;> cases failed
  rfl

private theorem readBlob_error {bytes left : List UInt8} {fault : DataFault}
    (failed : readBlob bytes = (.error fault, left)) : fault.isShortage = true := by
  unfold readBlob at failed
  split at failed
  · rename_i number
    cases failed
    exact readNumber_error number
  · split at failed <;> cases failed
    rfl

private theorem readTimeTag_error {bytes left : List UInt8} {fault : DataFault}
    (failed : readTimeTag bytes = (.error fault, left)) : fault.isShortage = true := by
  unfold readTimeTag at failed
  split at failed <;> cases failed
  rename_i number
  exact readNumber_error number

/-- A string that is all there is as bad with any bytes behind it. -/
theorem readString_error_append {bytes left : List UInt8} {fault : DataFault}
    (failed : readString bytes = (.error fault, left)) (whole : fault.isShortage = false) (rest : List UInt8) :
    readString (bytes ++ rest) = (.error fault, left ++ rest) := by
  by_cases terminated : 0 ∈ bytes
  · obtain ⟨text, more, rfl, clean⟩ := List.eq_append_cons_of_mem terminated
    rw [List.append_assoc, List.cons_append, readString_terminated clean]
    rw [readString_terminated clean] at failed
    dsimp only at failed ⊢
    set zeros := paddedLength (text.length + 1) - (text.length + 1)
    by_cases short : more.length < zeros
    · rw [if_pos short] at failed
      cases failed
      cases whole
    have long : ¬(more ++ rest).length < zeros := by
      rw [List.length_append]
      omega
    rw [if_neg short] at failed
    rw [if_neg long, List.take_append_of_le_length (Nat.le_of_not_lt short)]
    by_cases dirty : (more.take zeros).any (· ≠ 0)
    · rw [if_pos dirty] at failed ⊢
      cases failed
      simp
    · rw [if_neg dirty] at failed ⊢
      cases decoded : Utf8.decode text with
      | ok s =>
        rw [decoded] at failed
        cases failed
      | error fault =>
        rw [decoded] at failed
        cases failed
        simp [Except.mapError, Except.isOk, Except.toBool]
  · rw [readString_unterminated terminated] at failed
    cases failed
    cases whole

theorem asArgument_error_iff {α : Type} {build : α → Argument} {r : Except DataFault α × List UInt8}
    {fault : ArgumentFault} {left : List UInt8} :
    asArgument build r = (.error fault, left) ↔ ∃ reason, r = (.error reason, left) ∧ fault = .data reason := by
  obtain ⟨outcome, behind⟩ := r
  cases outcome with
  | error reason => simp [asArgument, eq_comm, and_comm]
  | ok x => simp [asArgument]

/-- An argument that is all there is as bad with any bytes behind it. -/
theorem readArgument_error_append {tag : Char} {bytes left : List UInt8} {fault : ArgumentFault}
    (failed : readArgument tag bytes = (.error fault, left)) (whole : fault.isShortage = false) (rest : List UInt8) :
    readArgument tag (bytes ++ rest) = (.error fault, left ++ rest) := by
  have never {α : Type} {build : α → Argument} {r : Except DataFault α × List UInt8}
      (failed : asArgument build r = (.error fault, left))
      (short : ∀ reason, r = (.error reason, left) → reason.isShortage = true) : False := by
    obtain ⟨reason, inner, rfl⟩ := asArgument_error_iff.mp failed
    exact Bool.false_ne_true (whole.symm.trans (short reason inner))
  unfold readArgument at failed ⊢
  split at failed
  · cases failed
  · cases failed
  · cases failed
  · exact (never failed fun _ => readNumber_error).elim
  · exact (never failed fun _ => readNumber_error).elim
  · obtain ⟨reason, inner, rfl⟩ := asArgument_error_iff.mp failed
    exact asArgument_error_iff.mpr ⟨reason, readString_error_append inner whole rest, rfl⟩
  · exact (never failed fun _ => readBlob_error).elim
  · exact (never failed fun _ => readNumber_error).elim
  · exact (never failed fun _ => readNumber_error).elim
  · exact (never failed fun _ => readTimeTag_error).elim
  · cases failed
    rfl

/-- Behind arguments that are read, the first bad one ends the reading, whatever tags follow. -/
theorem readTagged_bad {as : List Argument} {payload behind left : List UInt8} {tag : Char} {fault : ArgumentFault}
    (payloads : Payloads as payload) (bad : readArgument tag behind = (.error fault, left)) (index : Nat)
    (more : List Char) : readTagged index (as.map Argument.tag ++ tag :: more) (payload ++ behind) =
      (.error (.argument (index + as.length) tag fault), left) := by
  induction payloads generalizing index with
  | nil =>
    rw [List.map_nil, List.nil_append, List.nil_append, readTagged, bad]
    rfl
  | @cons a as front back first _ ih =>
    have read : readArgument a.tag (front ++ (back ++ behind)) = (.ok a, back ++ behind) :=
      readArgument_iff.mpr ⟨rfl, front, first, rfl⟩
    rw [List.map_cons, List.cons_append, List.append_assoc, readTagged]
    simp only [read, ih (index + 1), List.length_cons, Nat.add_assoc, Nat.add_comm 1]

/-- The argument of a message that is the first bad one, with the arguments read in front of it. -/
def IsFirstBad (tags : List Char) (bytes : List UInt8) (k : Nat) (tag : Char) (fault : ArgumentFault)
    (left : List UInt8) : Prop :=
  ∃ as payload more behind, as.length = k ∧ tags = as.map Argument.tag ++ tag :: more ∧ Payloads as payload ∧
    bytes = payload ++ behind ∧ readArgument tag behind = (.error fault, left)

theorem readTagged_error_iff {index : Nat} {tags : List Char} {bytes left : List UInt8} {e : Error} :
    readTagged index tags bytes = (.error e, left) ↔
      ∃ k tag fault, IsFirstBad tags bytes k tag fault left ∧ e = .argument (index + k) tag fault := by
  constructor
  · intro failed
    induction tags generalizing index bytes with
    | nil => cases failed
    | cons tag tags ih =>
      rw [readTagged] at failed
      split at failed
      · rename_i fault _ bad
        cases failed
        exact ⟨0, tag, fault, ⟨[], [], tags, bytes, rfl, rfl, .nil, rfl, bad⟩, rfl⟩
      · rename_i a behind first
        obtain ⟨rfl, front, payload, rfl⟩ := readArgument_iff.mp first
        split at failed
        · rename_i others
          cases failed
          obtain ⟨_, tag, fault, ⟨as, back, more, behind, rfl, rfl, payloads, rfl, bad⟩, rfl⟩ := ih others
          refine ⟨as.length + 1, tag, fault, ⟨a :: as, front ++ back, more, behind, rfl, rfl, .cons payload payloads,
            (List.append_assoc ..).symm, bad⟩, ?_⟩
          rw [Nat.add_assoc, Nat.add_comm 1]
        · cases failed
  · rintro ⟨_, tag, fault, ⟨as, payload, more, behind, rfl, rfl, payloads, rfl, bad⟩, rfl⟩
    exact readTagged_bad payloads bad index more

/-- Reading a message's arguments fails exactly if the tags have no comma in front or some argument is the first bad
    one. -/
theorem readArguments_error_iff {tags : String} {bytes left : List UInt8} {e : Error} :
    readArguments tags bytes = (.error e, left) ↔
      (tags.toList.head? ≠ some ',' ∧ e = .tagsWithoutComma tags ∧ left = bytes) ∨
        ∃ letters k tag fault, tags.toList = ',' :: letters ∧ IsFirstBad letters bytes k tag fault left ∧
          e = .argument k tag fault := by
  unfold readArguments
  split
  · rename_i letters spelled
    rw [readTagged_error_iff]
    simp [spelled]
  · rename_i bare
    constructor
    · intro failed
      cases failed
      refine .inl ⟨fun comma => ?_, rfl, rfl⟩
      obtain ⟨letters, spelled⟩ := List.head?_eq_some_iff.mp comma
      exact bare letters spelled
    · rintro (⟨-, rfl, rfl⟩ | ⟨letters, _, _, _, spelled, -⟩)
      · rfl
      · exact absurd spelled (bare letters)

end Wire

end OpenSound
