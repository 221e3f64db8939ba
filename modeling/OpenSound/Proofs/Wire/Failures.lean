import OpenSound.Wire.Packet

/-!
# Failures of decoding

Which error bytes fail with is told by their length and their first byte. What goes wrong inside a message stays one
of three kinds, and what goes wrong inside an element of a bundle becomes an error of that bundle at each level, but
for nesting that is too deep, which stays as it is.
-/

namespace OpenSound

open Wire

private theorem Wire.readTagged_error {index : Nat} {tags : List Char} {bytes rest : List UInt8} {e : Error}
    (failed : readTagged index tags bytes = (.error e, rest)) : e.kind = .malformedArgument := by
  induction tags generalizing index bytes with
  | nil => cases failed
  | cons tag tags ih =>
    rw [readTagged] at failed
    split at failed
    · cases failed
      rfl
    · split at failed
      · rename_i e' _ others
        cases failed
        exact ih others
      · cases failed

private theorem Wire.readArguments_error {tags : String} {bytes rest : List UInt8} {e : Error}
    (failed : readArguments tags bytes = (.error e, rest)) :
    e.kind = .malformedPacket ∨ e.kind = .malformedArgument := by
  unfold readArguments at failed
  split at failed
  · exact .inr (readTagged_error failed)
  · cases failed
    exact .inl rfl

private theorem Message.decode_error {bytes : List UInt8} {e : Error} (failed : Message.decode bytes = .error e) :
    e.kind = .malformedData ∨ e.kind = .malformedPacket ∨ e.kind = .malformedArgument := by
  unfold Message.decode at failed
  split at failed
  · cases failed
    exact .inl rfl
  · split at failed
    · cases failed
      exact .inl rfl
    · split at failed
      · rename_i arguments
        cases failed
        exact .inr (readArguments_error arguments)
      · cases failed

/-- An element's error becomes one of the bundle, unless the element is nested too deep. -/
theorem Bundle.elementError_cases (index : Nat) (e : Error) :
    (elementError index e).kind = .malformedBundle ∨ ∃ limit, e = .nestingTooDeep limit ∧ elementError index e = e := by
  cases e with
  | nestingTooDeep limit => exact .inr ⟨limit, rfl, rfl⟩
  | _ => exact .inl rfl

theorem Bundle.elementError_deep {k : Nat} {e : Error} (deep : e.kind = .nestingTooDeep) : elementError k e = e := by
  cases e with
  | nestingTooDeep => rfl
  | _ => cases deep

theorem Bundle.elementError_other {k : Nat} {e : Error} (other : e.kind ≠ .nestingTooDeep) :
    elementError k e = .element k e := by
  cases e with
  | nestingTooDeep => exact absurd rfl other
  | _ => rfl

private theorem Bundle.readElements_error {child : List UInt8 → Except Error Packet} {index : Nat}
    {bytes : List UInt8} {e : Error}
    (failed : readElements child index bytes = .error e) :
    e.kind = .malformedBundle ∨ ∃ limit piece, e = .nestingTooDeep limit ∧ child piece = .error e := by
  fun_induction readElements child index bytes with
  | case1 => cases failed
  | case2 =>
    cases failed
    exact .inl rfl
  | case3 =>
    cases failed
    exact .inl rfl
  | case4 index _ _ size rest _ _ e' broken =>
    cases failed
    obtain wrapped | ⟨limit, rfl, same⟩ := elementError_cases index e'
    · exact .inl wrapped
    · exact .inr ⟨limit, rest.take size, same, same ▸ broken⟩
  | case5 _ _ _ _ _ _ _ _ _ e' others ih =>
    cases failed
    exact ih others
  | case6 => cases failed

namespace Packet

private theorem decodeWith_eq_error {bundle : List UInt8 → Except Error Bundle} {bytes : List UInt8} {e : Error}
    (failed : decodeWith bundle bytes = .error e) :
    (e = .invalidFraming bytes.length ∧ (bytes.length = 0 ∨ bytes.length % 4 ≠ 0)) ∨
    bytes.length % 4 = 0 ∧ ∃ first, bytes.head? = some first ∧
      (first = 47 ∧ Message.decode bytes = .error e ∨ first = 35 ∧ bundle bytes = .error e ∨
        first ≠ 47 ∧ first ≠ 35 ∧ e = .unrecognizedPacket first) := by
  unfold decodeWith at failed
  split at failed
  · rename_i unaligned
    cases failed
    exact .inl ⟨rfl, .inr unaligned⟩
  rename_i aligned
  split at failed
  · cases failed
    exact .inl ⟨rfl, .inl rfl⟩
  rename_i first rest
  refine .inr ⟨by simpa using aligned, first, rfl, ?_⟩
  split at failed
  · rename_i slash
    refine .inl ⟨slash, ?_⟩
    cases read : Message.decode (first :: rest) <;> simp_all [Except.map]
  rename_i other
  split at failed
  · rename_i hash
    refine .inr (.inl ⟨hash, ?_⟩)
    cases read : bundle (first :: rest) <;> simp_all [Except.map]
  · rename_i neither
    cases failed
    exact .inr (.inr ⟨other, neither, rfl⟩)

end Packet

/-- Whatever number of levels is left, only nesting that is too deep comes out of a bundle as it is, and it names the
    deepest nesting that is read. -/
theorem Bundle.decodeWithin_error {levels : Nat} {bytes : List UInt8} {e : Error}
    (failed : decodeWithin levels bytes = .error e) : e.kind = .malformedBundle ∨ e = .nestingTooDeep maxDepth := by
  induction levels generalizing bytes e with
  | zero =>
    cases failed
    exact .inr rfl
  | succ levels ih =>
    rw [decodeWithin] at failed
    split at failed
    · cases failed
      exact .inl rfl
    split at failed
    · cases failed
      exact .inl rfl
    split at failed
    · cases failed
      exact .inl rfl
    split at failed
    · rename_i elements
      cases failed
      obtain wrapped | ⟨limit, piece, rfl, deep⟩ := readElements_error elements
      · exact .inl wrapped
      -- an element that is nested too deep can only be a bundle
      · obtain ⟨other, -⟩ | ⟨-, first, -, ⟨-, message⟩ | ⟨-, bundle⟩ | ⟨-, -, other⟩⟩ := Packet.decodeWith_eq_error deep
        · cases other
        · simpa [Error.kind] using Message.decode_error message
        · exact ih bundle
        · cases other
    · cases failed

namespace Packet

/-- The errors that bytes can fail with, by their length and their first byte. The slash is 47 and the hash is 35. -/
inductive Failure (bytes : List UInt8) : Error → Prop
  | framing : bytes.length = 0 ∨ bytes.length % 4 ≠ 0 → Failure bytes (.invalidFraming bytes.length)
  | message {e : Error} : bytes.length % 4 = 0 → bytes.head? = some 47 →
    e.kind = .malformedData ∨ e.kind = .malformedPacket ∨ e.kind = .malformedArgument → Failure bytes e
  | bundle {e : Error} : bytes.length % 4 = 0 → bytes.head? = some 35 → e.kind = .malformedBundle → Failure bytes e
  | nesting : bytes.length % 4 = 0 → bytes.head? = some 35 → Failure bytes (.nestingTooDeep maxDepth)
  | unrecognized {first : UInt8} : bytes.length % 4 = 0 → bytes.head? = some first → first ≠ 47 → first ≠ 35 →
    Failure bytes (.unrecognizedPacket first)

theorem failure_of_decode {bytes : List UInt8} {e : Error} (failed : decode bytes = .error e) : Failure bytes e := by
  obtain ⟨rfl, bad⟩ | ⟨aligned, first, head, kinds⟩ := decodeWith_eq_error failed
  · exact .framing bad
  obtain ⟨rfl, message⟩ | ⟨rfl, bundle⟩ | ⟨slash, hash, rfl⟩ := kinds
  · exact .message aligned head (Message.decode_error message)
  · rcases Bundle.decodeWithin_error bundle with kind | rfl
    · exact .bundle aligned head kind
    · exact .nesting aligned head
  · exact .unrecognized aligned head slash hash

theorem decode_eq_invalidFraming_iff {bytes : List UInt8} {n : Nat} :
    decode bytes = .error (.invalidFraming n) ↔ n = bytes.length ∧ (n = 0 ∨ n % 4 ≠ 0) := by
  constructor
  · intro failed
    cases failure_of_decode failed with
    | framing bad => exact ⟨rfl, bad⟩
    | message _ _ kind => simp [Error.kind] at kind
    | bundle _ _ kind => cases kind
  · rintro ⟨rfl, bad⟩
    cases bytes with
    | nil => rfl
    | cons first rest =>
      have unaligned : (first :: rest).length % 4 ≠ 0 := bad.resolve_left (by simp)
      simp only [decode, decodeWithin, decodeWith, if_pos unaligned]

theorem decode_eq_unrecognizedPacket_iff {bytes : List UInt8} {first : UInt8} :
    decode bytes = .error (.unrecognizedPacket first) ↔
      bytes.length % 4 = 0 ∧ bytes.head? = some first ∧ first ≠ 47 ∧ first ≠ 35 := by
  constructor
  · intro failed
    cases failure_of_decode failed with
    | unrecognized aligned head slash hash => exact ⟨aligned, head, slash, hash⟩
    | message _ _ kind => simp [Error.kind] at kind
    | bundle _ _ kind => cases kind
  · rintro ⟨aligned, head, slash, hash⟩
    obtain ⟨rest, rfl⟩ := List.head?_eq_some_iff.mp head
    simp only [decode, decodeWithin, decodeWith, if_neg (not_not_intro aligned), if_neg slash, if_neg hash]

namespace Failure

variable {bytes : List UInt8} {e : Error}

theorem kind_not_mem (failure : Failure bytes e) : e.kind ∉ [.unsupportedType, .invalidPattern, .payloadTooLarge] := by
  cases failure with
  | framing | nesting | unrecognized => simp [Error.kind]
  | message _ _ kind => rcases kind with kind | kind | kind <;> simp [kind]
  | bundle _ _ kind => simp [kind]

theorem isDecodeError (failure : Failure bytes e) : e.isDecodeError = true := by
  have other := failure.kind_not_mem
  cases kind : e.kind <;> simp_all [Error.isDecodeError]

private theorem head?_of_framing (aligned : bytes.length % 4 = 0) (bad : bytes.length = 0 ∨ bytes.length % 4 ≠ 0) :
    bytes.head? = none := by
  have empty := List.length_eq_zero_iff.mp (bad.resolve_right (not_not_intro aligned))
  rw [empty, List.head?_nil]

theorem of_slash (failure : Failure bytes e) (aligned : bytes.length % 4 = 0) (slash : bytes.head? = some 47) :
    e.kind = .malformedData ∨ e.kind = .malformedPacket ∨ e.kind = .malformedArgument := by
  cases failure with
  | framing bad => simp [head?_of_framing aligned bad] at slash
  | message _ _ kind => exact kind
  | bundle _ hash | nesting _ hash => simp [slash] at hash
  | unrecognized _ head other => exact absurd (Option.some.inj (head.symm.trans slash)) other

theorem of_hash (failure : Failure bytes e) (aligned : bytes.length % 4 = 0) (hash : bytes.head? = some 35) :
    e.kind = .malformedBundle ∨ e = .nestingTooDeep maxDepth := by
  cases failure with
  | framing bad => simp [head?_of_framing aligned bad] at hash
  | message _ slash => simp [slash] at hash
  | bundle _ _ kind => exact .inl kind
  | nesting => exact .inr rfl
  | unrecognized _ head _ other => exact absurd (Option.some.inj (head.symm.trans hash)) other

end Failure

end Packet

end OpenSound
