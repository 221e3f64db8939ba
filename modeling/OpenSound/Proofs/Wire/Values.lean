import Mathlib.Algebra.Order.Ring.Nat
import Mathlib.Data.List.Induction
import Mathlib.Data.List.TakeWhile
import OpenSound.Wire.Value

/-!
# What readers of values accept

Each value of the format has forms on the wire: one for a number or a string, and one for each filling of a blob.
A reader succeeds exactly on bytes that begin with a form of the value that it gives, and leaves the bytes behind
that form.
-/

namespace OpenSound.Wire

@[simp] theorem bigEndian_length (width n : Nat) : (bigEndian width n).length = width := by
  induction width generalizing n with
  | zero => rfl
  | succ width ih => simp [bigEndian, ih]

private theorem ofBigEndian_append (bytes : List UInt8) (b : UInt8) :
    ofBigEndian (bytes ++ [b]) = ofBigEndian bytes * 256 + b.toNat := by
  simp [ofBigEndian]

theorem ofBigEndian_bigEndian (width n : Nat) : ofBigEndian (bigEndian width n) = n % 256 ^ width := by
  induction width generalizing n with
  | zero => simp [bigEndian, ofBigEndian, Nat.mod_one]
  | succ width ih =>
    have byte : (UInt8.ofNat n).toNat = n % 256 := by simp
    rw [bigEndian, ofBigEndian_append, ih, byte, Nat.pow_succ, Nat.mul_comm (256 ^ width), Nat.mod_mul]
    omega

theorem ofBigEndian_lt (bytes : List UInt8) : ofBigEndian bytes < 256 ^ bytes.length := by
  induction bytes using List.reverseRecOn with
  | nil => decide
  | append_singleton bytes b ih =>
    rw [ofBigEndian_append]
    have small := b.toNat_lt
    have power : 256 ^ (bytes ++ [b]).length = 256 ^ bytes.length * 256 := by
      rw [List.length_append, List.length_singleton, Nat.pow_succ]
    omega

theorem bigEndian_ofBigEndian (bytes : List UInt8) : bigEndian bytes.length (ofBigEndian bytes) = bytes := by
  induction bytes using List.reverseRecOn with
  | nil => rfl
  | append_singleton bytes b ih =>
    have small := b.toNat_lt
    have high : (ofBigEndian bytes * 256 + b.toNat) / 256 = ofBigEndian bytes := by omega
    have low : UInt8.ofNat (ofBigEndian bytes * 256 + b.toNat) = b := by
      apply UInt8.toNat_inj.mp
      simp
    rw [ofBigEndian_append, List.length_append, List.length_singleton, bigEndian, high, low, ih]

theorem bigEndian_inj {width n k : Nat} (small : n < 256 ^ width) (small' : k < 256 ^ width)
    (equal : bigEndian width n = bigEndian width k) : n = k := by
  have values := congrArg ofBigEndian equal
  rwa [ofBigEndian_bigEndian, ofBigEndian_bigEndian, Nat.mod_eq_of_lt small, Nat.mod_eq_of_lt small'] at values

/-- Reading a number takes exactly the bytes of a number of that width. -/
theorem readNumber_iff {width n : Nat} {bytes rest : List UInt8} :
    readNumber width bytes = (.ok n, rest) ↔ n < 256 ^ width ∧ bytes = bigEndian width n ++ rest := by
  unfold readNumber
  constructor
  · intro read
    split at read
    · cases read
    · rename_i enough
      obtain ⟨rfl, rfl⟩ : ofBigEndian (bytes.take width) = n ∧ bytes.drop width = rest := by simpa using read
      have exact : (bytes.take width).length = width := by rw [List.length_take] at enough ⊢; omega
      have bound := ofBigEndian_lt (bytes.take width)
      have back := bigEndian_ofBigEndian (bytes.take width)
      rw [exact] at bound back
      exact ⟨bound, by rw [back, List.take_append_drop]⟩
  · rintro ⟨bound, rfl⟩
    simp [ofBigEndian_bigEndian, Nat.mod_eq_of_lt bound]

/-- Enough bytes begin with a number of a given width. -/
theorem exists_bigEndian {width : Nat} {bytes : List UInt8} (enough : width ≤ bytes.length) :
    ∃ n rest, n < 256 ^ width ∧ bytes = bigEndian width n ++ rest := by
  have read : readNumber width bytes = (.ok (ofBigEndian (bytes.take width)), bytes.drop width) := by
    rw [readNumber, if_neg (by rw [List.length_take]; omega)]
  exact ⟨_, _, readNumber_iff.mp read⟩

private theorem readNumber_word (v : UInt32) (rest : List UInt8) :
    readNumber 4 (bigEndian 4 v.toNat ++ rest) = (.ok v.toNat, rest) :=
  readNumber_iff.mpr ⟨v.toNat_lt, rfl⟩

private theorem readNumber_long (v : UInt64) (rest : List UInt8) :
    readNumber 8 (bigEndian 8 v.toNat ++ rest) = (.ok v.toNat, rest) :=
  readNumber_iff.mpr ⟨v.toNat_lt, rfl⟩

/-- The bytes of a string on the wire: its own bytes, none of which is zero, a zero, and fewer than four further
    zeros, up to a multiple of four. -/
def StringForm (s : String) (bytes : List UInt8) : Prop :=
  0 ∉ Utf8.encode s ∧
    ∃ zeros < 4, bytes = Utf8.encode s ++ 0 :: List.replicate zeros 0 ∧ bytes.length % 4 = 0

/-- The form of a string that holds no zero. -/
def stringBytes (s : String) : List UInt8 := Utf8.encode s ++ 0 :: padding ((Utf8.encode s).length + 1)

theorem paddedLength_bounds (n : Nat) : n ≤ paddedLength n ∧ paddedLength n < n + 4 ∧ paddedLength n % 4 = 0 := by
  unfold paddedLength
  omega

theorem paddedLength_eq {n zeros : Nat} (few : zeros < 4) (aligned : (n + zeros) % 4 = 0) :
    paddedLength n = n + zeros := by
  unfold paddedLength
  omega

/-- A string has one form. -/
theorem stringForm_iff {s : String} {bytes : List UInt8} :
    StringForm s bytes ↔ 0 ∉ Utf8.encode s ∧ bytes = stringBytes s := by
  refine and_congr_right fun _ => ⟨?_, ?_⟩
  · rintro ⟨zeros, few, rfl, aligned⟩
    have total := paddedLength_eq few (n := (Utf8.encode s).length + 1) (by simp at aligned; omega)
    rw [stringBytes, padding, total, Nat.add_sub_cancel_left]
  · rintro rfl
    obtain ⟨_, _, aligned⟩ := paddedLength_bounds ((Utf8.encode s).length + 1)
    refine ⟨paddedLength ((Utf8.encode s).length + 1) - ((Utf8.encode s).length + 1), by omega, rfl, ?_⟩
    simp [stringBytes, padding]
    omega

theorem stringBytes_length (s : String) : (stringBytes s).length = paddedLength ((Utf8.encode s).length + 1) := by
  have := (paddedLength_bounds ((Utf8.encode s).length + 1)).1
  simp [stringBytes, padding]
  omega

private theorem takeWhile_text {text : List UInt8} (clean : 0 ∉ text) (rest : List UInt8) :
    (text ++ 0 :: rest).takeWhile (· ≠ 0) = text := by
  rw [List.takeWhile_append_of_pos (by simpa using fun b member (zero : b = 0) => clean (zero ▸ member))]
  simp

theorem readString_unterminated {bytes : List UInt8} (clean : 0 ∉ bytes) :
    readString bytes = (.error .unterminated, bytes) := by
  have whole : bytes.takeWhile (· ≠ 0) = bytes := by
    rw [List.takeWhile_eq_self_iff]
    exact fun b member => by simpa using fun zero : b = 0 => clean (zero ▸ member)
  unfold readString
  simp only [whole, List.drop_length, List.isEmpty_nil, if_true]

/-- What reading a string does with a text, the zero behind it, and the bytes after that zero. -/
theorem readString_terminated {text : List UInt8} (clean : 0 ∉ text) (more : List UInt8) :
    readString (text ++ 0 :: more) =
      let total := paddedLength (text.length + 1)
      let zeros := total - (text.length + 1)
      if more.length < zeros then
        (.error (.paddingTruncated total (text.length + 1 + more.length)), text ++ 0 :: more)
      else if (more.take zeros).any (· ≠ 0) then (.error .dirtyPadding, text ++ 0 :: more)
      else ((Utf8.decode text).mapError .notUtf8,
        if (Utf8.decode text).isOk then more.drop zeros else text ++ 0 :: more) := by
  obtain ⟨longer, _, _⟩ := paddedLength_bounds (text.length + 1)
  unfold readString
  simp only [takeWhile_text clean]
  generalize paddedLength (text.length + 1) = total at longer
  obtain ⟨zeros, rfl⟩ : ∃ zeros, total = text.length + (1 + zeros) := ⟨total - (text.length + 1), by omega⟩
  have taken : (text ++ 0 :: more).take (text.length + (1 + zeros)) = text ++ 0 :: more.take zeros := by
    rw [List.take_length_add_append, Nat.add_comm 1, List.take_succ_cons]
  have dropped : (text ++ 0 :: more).drop (text.length + (1 + zeros)) = more.drop zeros := by
    rw [List.drop_length_add_append, Nat.add_comm 1, List.drop_succ_cons]
  have filling : (text ++ 0 :: more.take zeros).drop (text.length + 1) = more.take zeros := by
    rw [List.drop_length_add_append, List.drop_succ_cons, List.drop_zero]
  have count : text.length + (1 + zeros) - (text.length + 1) = zeros := by omega
  have short : (text ++ 0 :: more.take zeros).length < text.length + (1 + zeros) ↔ more.length < zeros := by
    simp
    omega
  have ended : ¬((text ++ 0 :: more).drop text.length).isEmpty := by simp
  have size : (text ++ 0 :: more).length = text.length + 1 + more.length := by simp; omega
  simp only [taken, dropped, filling, count, short, size, if_neg ended]
  cases Utf8.decode text <;> rfl

/-- Reading a string takes exactly the form of that string. -/
theorem readString_iff {s : String} {bytes rest : List UInt8} :
    readString bytes = (.ok s, rest) ↔ ∃ front, StringForm s front ∧ bytes = front ++ rest := by
  by_cases terminated : 0 ∈ bytes
  · obtain ⟨text, more, rfl, clean⟩ := List.eq_append_cons_of_mem terminated
    rw [readString_terminated clean]
    obtain ⟨longer, near, aligned⟩ := paddedLength_bounds (text.length + 1)
    constructor
    · intro read
      dsimp only at read
      by_cases short : more.length < paddedLength (text.length + 1) - (text.length + 1)
      · rw [if_pos short] at read
        cases read
      rw [if_neg short] at read
      by_cases dirty : (more.take (paddedLength (text.length + 1) - (text.length + 1))).any (· ≠ 0)
      · rw [if_pos dirty] at read
        cases read
      rw [if_neg dirty] at read
      cases found : Utf8.decode text with
      | error fault =>
        rw [found] at read
        cases read
      | ok t =>
        rw [found] at read
        cases read
        rw [Utf8.decode_eq_ok_iff] at found
        subst found
        set zeros := paddedLength ((Utf8.encode s).length + 1) - ((Utf8.encode s).length + 1)
        have filling : more.take zeros = List.replicate zeros 0 := by
          rw [List.eq_replicate_iff]
          exact ⟨by rw [List.length_take]; omega, by simpa using dirty⟩
        refine ⟨Utf8.encode s ++ 0 :: List.replicate zeros 0, ⟨clean, zeros, by omega, rfl, by simp; omega⟩, ?_⟩
        have kept : (if (Except.ok s : Except Utf8.Fault String).isOk then more.drop zeros
            else Utf8.encode s ++ 0 :: more) = more.drop zeros := rfl
        rw [kept, ← filling, List.append_assoc, List.cons_append, List.take_append_drop]
    · rintro ⟨_, ⟨clean', zeros, few, rfl, whole⟩, equal⟩
      have texts : text = Utf8.encode s := by
        rw [← takeWhile_text clean more, equal, List.append_assoc, List.cons_append, takeWhile_text clean']
      subst texts
      have mores : more = List.replicate zeros 0 ++ rest := by simpa using equal
      have total := paddedLength_eq few (n := (Utf8.encode s).length + 1) (by simp at whole; omega)
      subst mores
      simp [total, Except.mapError, Except.isOk, Except.toBool]
  · rw [readString_unterminated terminated]
    refine iff_of_false (by simp) ?_
    rintro ⟨_, ⟨_, _, _, rfl, _⟩, rfl⟩
    simp at terminated

/-- The bytes of a blob on the wire: its length, its own bytes, and any bytes that fill these up to a multiple of
    four. -/
def BlobForm (data bytes : List UInt8) : Prop :=
  data.length < UInt32.size ∧ ∃ filling : List UInt8, filling.length = paddedLength data.length - data.length ∧
    bytes = bigEndian 4 data.length ++ data ++ filling

/-- The bytes of a time tag on the wire: a 64-bit value that stands for it. -/
def TimeTagForm (t : TimeTag) (bytes : List UInt8) : Prop :=
  ∃ raw : UInt64, t = .ofRaw raw ∧ bytes = bigEndian 8 raw.toNat

/-- Reading a blob takes exactly a form of that blob. -/
theorem readBlob_iff {data bytes rest : List UInt8} :
    readBlob bytes = (.ok data, rest) ↔ ∃ front, BlobForm data front ∧ bytes = front ++ rest := by
  unfold readBlob
  constructor
  · intro read
    split at read
    · cases read
    · rename_i length behind number
      obtain ⟨bound, rfl⟩ := readNumber_iff.mp number
      split_ifs at read with short
      · cases read
      obtain ⟨rfl, rfl⟩ : behind.take length = data ∧ behind.drop (paddedLength length) = rest := by simpa using read
      obtain ⟨longer, _, _⟩ := paddedLength_bounds length
      have size : (behind.take length).length = length := by rw [List.length_take]; omega
      refine ⟨bigEndian 4 length ++ behind.take length ++ (behind.drop length).take (paddedLength length - length),
        ⟨by rw [size]; exact bound, (behind.drop length).take (paddedLength length - length), ?_, by rw [size]⟩, ?_⟩
      · rw [size, List.length_take, List.length_drop]
        omega
      · have later : behind.drop (paddedLength length) = (behind.drop length).drop (paddedLength length - length) := by
          rw [List.drop_drop]; congr 1; omega
        rw [later, List.append_assoc, List.append_assoc, List.take_append_drop, List.take_append_drop]
  · rintro ⟨_, ⟨bound, filling, size, rfl⟩, rfl⟩
    obtain ⟨longer, _, _⟩ := paddedLength_bounds data.length
    have number : readNumber 4 (bigEndian 4 data.length ++ data ++ filling ++ rest) =
        (.ok data.length, data ++ filling ++ rest) := readNumber_iff.mpr ⟨bound, by simp⟩
    have whole : (data ++ filling).length = paddedLength data.length := by rw [List.length_append]; omega
    have taken : (data ++ filling ++ rest).take data.length = data := by simp
    have dropped : (data ++ filling ++ rest).drop (paddedLength data.length) = rest := by rw [← whole, List.drop_left]
    have enough : ¬(data ++ filling ++ rest).length < paddedLength data.length := by
      rw [List.length_append]; omega
    simp only [number, taken, dropped, if_neg enough]

/-- Reading a time tag takes exactly a form of that tag. -/
theorem readTimeTag_iff {t : TimeTag} {bytes rest : List UInt8} :
    readTimeTag bytes = (.ok t, rest) ↔ ∃ front, TimeTagForm t front ∧ bytes = front ++ rest := by
  unfold readTimeTag
  constructor
  · intro read
    split at read
    · cases read
    · rename_i raw behind number
      obtain ⟨bound, rfl⟩ := readNumber_iff.mp number
      obtain ⟨rfl, rfl⟩ : TimeTag.ofRaw (UInt64.ofNat raw) = t ∧ behind = rest := by simpa using read
      have size : (UInt64.ofNat raw).toNat = raw := UInt64.toNat_ofNat_of_lt' bound
      exact ⟨_, ⟨UInt64.ofNat raw, rfl, rfl⟩, by rw [size]⟩
  · rintro ⟨_, ⟨raw, rfl, rfl⟩, rfl⟩
    simp [readNumber_long]

/-- The bytes that an argument puts behind the tags of its message. -/
def Payload : Argument → List UInt8 → Prop
  | .nil, bytes => bytes = []
  | .bool _, bytes => bytes = []
  | .int32 i, bytes => bytes = bigEndian 4 i.toUInt32.toNat
  | .float32 bits, bytes => bytes = bigEndian 4 bits.toNat
  | .string s, bytes => StringForm s bytes
  | .blob data, bytes => BlobForm data bytes
  | .int64 i, bytes => bytes = bigEndian 8 i.toUInt64.toNat
  | .float64 bits, bytes => bytes = bigEndian 8 bits.toNat
  | .timeTag t, bytes => TimeTagForm t bytes

/-- The bytes of some arguments, one payload after another. -/
inductive Payloads : List Argument → List UInt8 → Prop
  | nil : Payloads [] []
  | cons {a : Argument} {as : List Argument} {front back : List UInt8} :
    Payload a front → Payloads as back → Payloads (a :: as) (front ++ back)

private theorem asArgument_iff {α : Type} {build : α → Argument} {r : Except DataFault α × List UInt8} {a : Argument}
    {rest : List UInt8} : asArgument build r = (.ok a, rest) ↔ ∃ x, r = (.ok x, rest) ∧ build x = a := by
  obtain ⟨outcome, behind⟩ := r
  cases outcome with
  | error fault => simp [asArgument]
  | ok x => simp [asArgument, and_comm]

private theorem payload_of_read {tag : Char} {a : Argument} {bytes rest : List UInt8}
    (read : readArgument tag bytes = (.ok a, rest)) :
    a.tag = tag ∧ ∃ front, Payload a front ∧ bytes = front ++ rest := by
  have word {n : Nat} (bound : n < 256 ^ 4) : (UInt32.ofNat n).toNat = n := UInt32.toNat_ofNat_of_lt' bound
  have long {n : Nat} (bound : n < 256 ^ 8) : (UInt64.ofNat n).toNat = n := UInt64.toNat_ofNat_of_lt' bound
  unfold readArgument at read
  split at read
  · cases read; exact ⟨rfl, [], rfl, rfl⟩
  · cases read; exact ⟨rfl, [], rfl, rfl⟩
  · cases read; exact ⟨rfl, [], rfl, rfl⟩
  · obtain ⟨n, number, rfl⟩ := asArgument_iff.mp read
    obtain ⟨bound, rfl⟩ := readNumber_iff.mp number
    exact ⟨rfl, _, rfl, by rw [UInt32.toUInt32_toInt32, word bound]⟩
  · obtain ⟨n, number, rfl⟩ := asArgument_iff.mp read
    obtain ⟨bound, rfl⟩ := readNumber_iff.mp number
    exact ⟨rfl, _, rfl, by rw [word bound]⟩
  · obtain ⟨s, string, rfl⟩ := asArgument_iff.mp read
    exact ⟨rfl, readString_iff.mp string⟩
  · obtain ⟨data, blob, rfl⟩ := asArgument_iff.mp read
    exact ⟨rfl, readBlob_iff.mp blob⟩
  · obtain ⟨n, number, rfl⟩ := asArgument_iff.mp read
    obtain ⟨bound, rfl⟩ := readNumber_iff.mp number
    exact ⟨rfl, _, rfl, by rw [UInt64.toUInt64_toInt64, long bound]⟩
  · obtain ⟨n, number, rfl⟩ := asArgument_iff.mp read
    obtain ⟨bound, rfl⟩ := readNumber_iff.mp number
    exact ⟨rfl, _, rfl, by rw [long bound]⟩
  · obtain ⟨t, time, rfl⟩ := asArgument_iff.mp read
    exact ⟨rfl, readTimeTag_iff.mp time⟩
  · cases read

private theorem read_of_payload {a : Argument} {front : List UInt8} (payload : Payload a front) (rest : List UInt8) :
    readArgument a.tag (front ++ rest) = (.ok a, rest) := by
  cases a with
  | nil => cases payload; rfl
  | bool b => cases payload; cases b <;> rfl
  | int32 i =>
    cases payload
    show asArgument (fun n => .int32 (UInt32.ofNat n).toInt32) (readNumber 4 (bigEndian 4 i.toUInt32.toNat ++ rest)) = _
    rw [readNumber_word]
    simp [asArgument]
  | float32 bits =>
    cases payload
    show asArgument (fun n => .float32 (UInt32.ofNat n)) (readNumber 4 (bigEndian 4 bits.toNat ++ rest)) = _
    rw [readNumber_word]
    simp [asArgument]
  | string s => exact asArgument_iff.mpr ⟨s, readString_iff.mpr ⟨front, payload, rfl⟩, rfl⟩
  | blob data => exact asArgument_iff.mpr ⟨data, readBlob_iff.mpr ⟨front, payload, rfl⟩, rfl⟩
  | int64 i =>
    cases payload
    show asArgument (fun n => .int64 (UInt64.ofNat n).toInt64) (readNumber 8 (bigEndian 8 i.toUInt64.toNat ++ rest)) = _
    rw [readNumber_long]
    simp [asArgument]
  | float64 bits =>
    cases payload
    show asArgument (fun n => .float64 (UInt64.ofNat n)) (readNumber 8 (bigEndian 8 bits.toNat ++ rest)) = _
    rw [readNumber_long]
    simp [asArgument]
  | timeTag t => exact asArgument_iff.mpr ⟨t, readTimeTag_iff.mpr ⟨front, payload, rfl⟩, rfl⟩

/-- Reading an argument takes exactly a payload of an argument with that tag. -/
theorem readArgument_iff {tag : Char} {a : Argument} {bytes rest : List UInt8} :
    readArgument tag bytes = (.ok a, rest) ↔ a.tag = tag ∧ ∃ front, Payload a front ∧ bytes = front ++ rest := by
  refine ⟨payload_of_read, ?_⟩
  rintro ⟨rfl, front, payload, rfl⟩
  exact read_of_payload payload rest

/-- Reading the arguments for some tags takes exactly the payloads of arguments with those tags. -/
theorem readTagged_iff {index : Nat} {tags : List Char} {as : List Argument} {bytes rest : List UInt8} :
    readTagged index tags bytes = (.ok as, rest) ↔
      as.map Argument.tag = tags ∧ ∃ front, Payloads as front ∧ bytes = front ++ rest := by
  induction tags generalizing index as bytes with
  | nil =>
    rw [readTagged, List.map_eq_nil_iff]
    constructor
    · intro read
      cases read
      exact ⟨rfl, [], .nil, rfl⟩
    · rintro ⟨rfl, front, payloads, rfl⟩
      cases payloads
      rfl
  | cons tag tags ih =>
    rw [readTagged]
    constructor
    · intro read
      split at read
      · cases read
      rename_i a behind first
      obtain ⟨rfl, front, payload, rfl⟩ := readArgument_iff.mp first
      split at read
      · cases read
      rename_i others last others_read
      cases read
      obtain ⟨rfl, back, payloads, rfl⟩ := ih.mp others_read
      exact ⟨rfl, front ++ back, .cons payload payloads, (List.append_assoc ..).symm⟩
    · rintro ⟨named, _, payloads, rfl⟩
      cases payloads with
      | nil => simp at named
      | @cons a as front back payload payloads =>
        obtain ⟨rfl, names⟩ : a.tag = tag ∧ as.map Argument.tag = tags := by simpa using named
        have first : readArgument a.tag (front ++ back ++ rest) = (.ok a, back ++ rest) := by
          rw [List.append_assoc]
          exact read_of_payload payload (back ++ rest)
        have others : readTagged (index + 1) tags (back ++ rest) = (.ok as, rest) :=
          ih.mpr ⟨names, back, payloads, rfl⟩
        simp only [first, others]

/-- Reading a message's arguments takes exactly payloads of arguments with the tags behind the comma. -/
theorem readArguments_iff {tags : String} {as : List Argument} {bytes rest : List UInt8} :
    readArguments tags bytes = (.ok as, rest) ↔
      tags = String.ofList (',' :: as.map Argument.tag) ∧ ∃ front, Payloads as front ∧ bytes = front ++ rest := by
  unfold readArguments
  split
  · rename_i letters spelled
    rw [readTagged_iff]
    refine and_congr_left fun _ => ?_
    rw [← String.toList_inj, spelled, String.toList_ofList, List.cons.injEq, eq_comm]
    simp
  · rename_i bare
    refine iff_of_false (by simp) ?_
    rintro ⟨rfl, _⟩
    exact bare _ (String.toList_ofList)

end OpenSound.Wire
