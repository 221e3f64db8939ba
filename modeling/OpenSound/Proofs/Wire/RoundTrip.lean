import OpenSound.Proofs.TimeTag
import OpenSound.Proofs.Wire.Grammar
import OpenSound.Proofs.Wire.Writing

/-!
# Decoding what was encoded

What is written of a packet with canonical time tags and addresses behind slashes is in the grammar, and whatever
the grammar derives has such tags and addresses. So the decoder gives back exactly the packets of this kind that
are not nested too deep.
-/

namespace OpenSound

open Wire

/-- A canonical time tag has one form, and no other tag has any. -/
theorem Wire.timeTagForm_iff {t : TimeTag} {bytes : List UInt8} :
    TimeTagForm t bytes ↔ t.IsCanonical ∧ bytes = bigEndian 8 t.toRaw.toNat := by
  constructor
  · rintro ⟨raw, rfl, rfl⟩
    exact ⟨TimeTag.ofRaw_isCanonical raw, by rw [TimeTag.toRaw_ofRaw]⟩
  · rintro ⟨canonical, rfl⟩
    exact ⟨t.toRaw, ((TimeTag.ofRaw_toRaw_iff t).mpr canonical).symm, rfl⟩

/-- Only a blob has other payloads than what is written of it. -/
theorem Wire.Payload.wire_eq {a : Argument} {bytes : List UInt8} (payload : Payload a bytes)
    (plain : ∀ data, a ≠ .blob data) : a.wire = bytes := by
  cases a with
  | string s => exact (stringForm_iff.mp payload).2.symm
  | blob data => exact absurd rfl (plain data)
  | timeTag t => exact (timeTagForm_iff.mp payload).2.symm
  | _ => exact payload.symm

/-- All payloads of an argument are as long as what is written of it. -/
theorem Wire.Payload.wire_length {a : Argument} {bytes : List UInt8} (payload : Payload a bytes) :
    a.wire.length = bytes.length := by
  cases a with
  | blob data =>
    obtain ⟨_, filling, size, rfl⟩ := payload
    simp [Argument.wire, padding, size]
  | _ => rw [payload.wire_eq (by simp)]

theorem Wire.Payloads.wire_length {as : List Argument} {bytes : List UInt8} (payloads : Payloads as bytes) :
    (as.flatMap Argument.wire).length = bytes.length := by
  induction payloads with
  | nil => rfl
  | cons payload _ ih => rw [List.flatMap_cons, List.length_append, List.length_append, payload.wire_length, ih]

theorem Wire.Payloads.timeTags_canonical {as : List Argument} {bytes : List UInt8} (payloads : Payloads as bytes) :
    ∀ t ∈ as.filterMap Argument.timeTag?, t.IsCanonical := by
  induction payloads with
  | nil => simp
  | @cons a as front back payload _ ih =>
    intro t member
    rw [List.mem_filterMap] at member
    obtain ⟨b, member, tag⟩ := member
    rcases List.mem_cons.mp member with rfl | later
    · cases b <;> simp only [Argument.timeTag?, reduceCtorEq, Option.some.injEq] at tag
      subst tag
      obtain ⟨raw, rfl, _⟩ := payload
      exact TimeTag.ofRaw_isCanonical raw
    · exact ih t (List.mem_filterMap.mpr ⟨b, later, tag⟩)

mutual

theorem Wire.Derives.sound : ∀ {p : Packet} {bytes : List UInt8}, Derives bytes p → p.IsAddressed ∧ p.IsCanonical
  | .message m, _, .message slash _ _ payloads _ => by
    refine ⟨?_, payloads.timeTags_canonical⟩
    intro n member
    rw [Packet.messages, List.mem_singleton] at member
    exact member ▸ slash
  | .bundle t ps, _, .bundle time elements _ => by
    obtain ⟨addressed, canonical⟩ := elements.sound
    obtain ⟨raw, rfl, _⟩ := time
    exact ⟨addressed, List.forall_mem_cons.mpr ⟨TimeTag.ofRaw_isCanonical raw, canonical⟩⟩

theorem Wire.DerivesAll.sound : ∀ {ps : List Packet} {bytes : List UInt8}, DerivesAll bytes ps →
    (∀ m ∈ Packet.messagesAll ps, m.address.toList.head? = some '/') ∧
      ∀ t ∈ Packet.timeTagsAll ps, t.IsCanonical
  | [], _, .nil => by simp [Packet.messagesAll, Packet.timeTagsAll]
  | p :: ps, _, .cons _ first others => by
    obtain ⟨addressed, canonical⟩ := first.sound
    obtain ⟨addressedAll, canonicalAll⟩ := others.sound
    exact ⟨List.forall_mem_append.mpr ⟨addressed, addressedAll⟩, List.forall_mem_append.mpr ⟨canonical, canonicalAll⟩⟩

end

theorem Wire.Derives.decode_message {bytes : List UInt8} {m : Message} (derives : Derives bytes (.message m)) :
    Message.decode bytes = .ok m := by
  cases derives with
  | message _ addressForm tagsForm payloads _ =>
    exact Message.decode_iff.mpr ⟨_, _, _, _, addressForm, tagsForm, payloads, rfl⟩

theorem Wire.Derives.head?_message {bytes : List UInt8} {m : Message} (derives : Derives bytes (.message m)) :
    bytes.head? = some 47 := by
  cases derives with
  | message slash addressForm _ _ _ =>
    rw [List.append_assoc, List.append_assoc, addressForm.head?_iff]
    exact slash

theorem Wire.Derives.head?_bundle {bytes : List UInt8} {t : TimeTag} {ps : List Packet}
    (derives : Derives bytes (.bundle t ps)) : bytes.head? = some 35 := by
  cases derives
  rfl

/-- Bytes that are read as a message are at least as long as what is written of it. -/
theorem Message.wire_length_le {bytes : List UInt8} {m : Message} (read : Message.decode bytes = .ok m) :
    m.wire.length ≤ bytes.length := by
  obtain ⟨address, tags, arguments, trailing, addressForm, tagsForm, payloads, rfl⟩ := Message.decode_iff.mp read
  have argumentsLength := payloads.wire_length
  rw [(stringForm_iff.mp addressForm).2, (stringForm_iff.mp tagsForm).2, Message.wire]
  simp only [List.length_append]
  omega

theorem Argument.wire_payload {a : Argument} (writable : a.IsWritable)
    (canonical : ∀ t, a.timeTag? = some t → t.IsCanonical) : Payload a a.wire := by
  cases a with
  | string s => exact stringForm_iff.mpr ⟨writable.2, rfl⟩
  | blob data =>
    have small : data.length < UInt32.size := Nat.lt_of_le_of_lt writable (by decide)
    exact ⟨small, padding data.length, by simp [padding], rfl⟩
  | timeTag t => exact ⟨t.toRaw, ((TimeTag.ofRaw_toRaw_iff t).mpr (canonical t rfl)).symm, rfl⟩
  | _ => rfl

private theorem Wire.payloads_flatMap {as : List Argument} (writable : ∀ a ∈ as, a.IsWritable)
    (canonical : ∀ t ∈ as.filterMap Argument.timeTag?, t.IsCanonical) : Payloads as (as.flatMap Argument.wire) := by
  induction as with
  | nil => exact .nil
  | cons a as ih =>
    obtain ⟨first, others⟩ := List.forall_mem_cons.mp writable
    refine .cons (a.wire_payload first fun t tag => canonical t ?_) (ih others fun t member => canonical t ?_)
    · exact List.mem_filterMap.mpr ⟨a, List.mem_cons_self, tag⟩
    · obtain ⟨b, later, tag⟩ := List.mem_filterMap.mp member
      exact List.mem_filterMap.mpr ⟨b, List.mem_cons_of_mem a later, tag⟩

mutual

/-- A written packet with canonical tags and addresses behind slashes is in the grammar. -/
theorem Packet.wire_derives : ∀ p : Packet, p.IsWritable → p.IsAddressed → p.IsCanonical → Derives p.wire p
  | .message m, ⟨address, tags, arguments⟩, addressed, canonical => by
    have slash := addressed m (List.mem_singleton.mpr rfl)
    have whole : m.wire = stringBytes m.address ++ stringBytes m.tags ++ m.arguments.flatMap Argument.wire ++ [] := by
      simp [Message.wire]
    have aligned := m.wire_aligned
    rw [Packet.wire]
    rw [whole] at aligned ⊢
    exact .message slash (stringForm_iff.mpr ⟨address.2, rfl⟩) (stringForm_iff.mpr ⟨tags.2, rfl⟩)
      (payloads_flatMap arguments canonical) aligned
  | .bundle t ps, writable, addressed, canonical => by
    obtain ⟨first, others⟩ := List.forall_mem_cons.mp canonical
    have time : TimeTagForm t (bigEndian 8 t.toRaw.toNat) :=
      ⟨t.toRaw, ((TimeTag.ofRaw_toRaw_iff t).mpr first).symm, rfl⟩
    exact .bundle time (Packet.wireAll_derives ps writable addressed others) (Packet.wire_aligned (.bundle t ps))

private theorem Packet.wireAll_derives : ∀ ps : List Packet, Packet.AllWritable ps →
    (∀ m ∈ Packet.messagesAll ps, m.address.toList.head? = some '/') →
    (∀ t ∈ Packet.timeTagsAll ps, t.IsCanonical) → DerivesAll (Packet.wireAll ps) ps
  | [], _, _, _ => .nil
  | p :: ps, ⟨writable, small, writableAll⟩, addressed, canonical => by
    obtain ⟨addressedFirst, addressedOthers⟩ := List.forall_mem_append.mp addressed
    obtain ⟨canonicalFirst, canonicalOthers⟩ := List.forall_mem_append.mp canonical
    exact .cons small (p.wire_derives writable addressedFirst canonicalFirst)
      (Packet.wireAll_derives ps writableAll addressedOthers canonicalOthers)

end

/-- The decoder gives back, bit for bit, a written packet with canonical tags and addresses behind slashes that is not
    nested too deep. -/
theorem Packet.decode_of_encode {p : Packet} {bytes : List UInt8} (encoded : p.encode = .ok bytes)
    (addressed : p.IsAddressed) (canonical : p.IsCanonical) (shallow : p.depth ≤ maxDepth) :
    decode bytes = .ok p := by
  obtain ⟨writable, rfl⟩ := Packet.encode_iff.mp encoded
  exact decodeWithin_iff.mpr ⟨p.wire_derives writable addressed canonical, shallow⟩

/-- A packet that is equal as a value to a decoded one has what every decoded packet has, and only numbers. -/
theorem Packet.restricted_of_decode_same {p q : Packet} {bytes : List UInt8} (decoded : decode bytes = .ok q)
    (same : q.same p = true) : p.IsAddressed ∧ p.IsCanonical ∧ p.IsNumeric ∧ p.depth ≤ maxDepth := by
  obtain ⟨derives, shallow⟩ := decodeWithin_iff.mp decoded
  obtain ⟨addressed, canonical⟩ := derives.sound
  obtain ⟨depths, tags, related⟩ := Packet.same_spec q p same
  refine ⟨?_, ?_, ?_, depths ▸ shallow⟩
  · intro m member
    obtain ⟨n, found, equal⟩ := related m member
    exact (Message.same_spec equal).1 ▸ addressed n found
  · intro t member
    exact canonical t (tags ▸ member)
  · intro m member
    obtain ⟨n, _, equal⟩ := related m member
    exact (Message.same_spec equal).2.2

/-- Decoding the encoding of a packet gives a packet that is equal to it as a value exactly if its addresses begin with
    slashes, its time tags are canonical, its floats are numbers and its bundles are nested at most thirty-two deep.
    Without the condition on floats it gives the packet itself, its floats bit for bit. -/
theorem Packet.decode_encode_same_iff (p : Packet) (bytes : List UInt8) (encoded : p.encode = .ok bytes) :
    ((∃ q, decode bytes = .ok q ∧ q.same p = true) ↔
      p.IsAddressed ∧ p.IsCanonical ∧ p.IsNumeric ∧ p.depth ≤ maxDepth) ∧
    (p.IsAddressed → p.IsCanonical → p.depth ≤ maxDepth → decode bytes = .ok p) := by
  refine ⟨⟨?_, ?_⟩, decode_of_encode encoded⟩
  · rintro ⟨q, decoded, same⟩
    exact restricted_of_decode_same decoded same
  · rintro ⟨addressed, canonical, numeric, shallow⟩
    exact ⟨p, decode_of_encode encoded addressed canonical shallow, p.same_self_iff.mpr numeric⟩

theorem Packet.decode_encode_same_nested :
    let p := bundle ⟨3, 4, false⟩ [message ⟨"/a", [.blob [7], .float32 0x3f800000]⟩, bundle .immediate []]
    ∃ bytes, p.encode = .ok bytes ∧ ∃ q, decode bytes = .ok q ∧ q.same p = true := by
  intro p
  have encoded : p.encode = .ok p.wire := by rfl
  exact ⟨p.wire, encoded, (Packet.decode_encode_same_iff p p.wire encoded).1.mpr
    ⟨by decide +kernel, by decide +kernel, by decide +kernel, by decide +kernel⟩⟩

end OpenSound
