import OpenSound.Proofs.Wire.Elements
import OpenSound.Proofs.Wire.RoundTrip

/-!
# The normal form of received bytes

The decoder passes over two kinds of bytes without a look: those that fill up a blob, and those behind the last
argument of a message. Whatever it accepts can be encoded again, to bytes that are no longer and that it reads in the
same way; only these two kinds of bytes, wherever a message stands in a packet, can make a difference.
-/

namespace OpenSound

open Wire

/-- The texts in a message: its address and its string arguments. -/
def Message.strings (m : Message) : List String := m.address :: m.arguments.filterMap Argument.asString?

/-- What received bytes are encoded as again, if they are a packet. -/
def Packet.normalise (bytes : List UInt8) : Except Error (List UInt8) := (decode bytes).bind encode

namespace Wire

/-- The bytes of a message in the bytes of a packet: all of them, or in an element of a bundle. -/
inductive HoldsMessage : List UInt8 → List UInt8 → Prop
  | self {bytes : List UInt8} : bytes.head? = some 47 → HoldsMessage bytes bytes
  | element {time child part : List UInt8} {children : List (List UInt8)} : time.length = 8 →
    (∀ c ∈ children, c.length < UInt32.size) → child ∈ children → HoldsMessage child part →
    HoldsMessage (bundleHeader ++ time ++ sized children) part

/-- A payload in which nothing but zeros fills up a blob. -/
def ZeroFilled (a : Argument) (bytes : List UInt8) : Prop :=
  ∀ data filling, a = .blob data → bytes = bigEndian 4 data.length ++ data ++ filling → ∀ b ∈ filling, b = 0

/-- The bytes of a message that end with its last argument and fill up its blobs with zeros. -/
def TidyMessage (bytes : List UInt8) : Prop :=
  ∃ (m : Message) (address tags : List UInt8) (payloads : List (List UInt8)),
    StringForm m.address address ∧ StringForm m.tags tags ∧
    List.Forall₂ (fun a payload => Payload a payload ∧ ZeroFilled a payload) m.arguments payloads ∧
    bytes = address ++ tags ++ payloads.flatten

theorem Payload.wire_eq_iff {a : Argument} {bytes : List UInt8} (payload : Payload a bytes) :
    a.wire = bytes ↔ ZeroFilled a bytes := by
  cases a with
  | blob data =>
    obtain ⟨_, filling, size, rfl⟩ := payload
    constructor
    · intro equal data' filling' same split
      cases same
      have zeros : padding data.length = filling := List.append_cancel_left equal
      have fillings : filling = filling' := List.append_cancel_left split
      intro b member
      rw [← fillings, ← zeros] at member
      exact List.eq_of_mem_replicate member
    · intro zero
      have zeros : filling = padding data.length := List.eq_replicate_iff.mpr ⟨size, zero data filling rfl rfl⟩
      rw [Argument.wire, zeros]
  | _ => exact iff_of_true (payload.wire_eq (by simp)) (by rintro _ _ ⟨⟩)

theorem Payload.wire_payload {a : Argument} {bytes : List UInt8} (payload : Payload a bytes) : Payload a a.wire := by
  cases a with
  | blob data => exact ⟨payload.1, padding data.length, by simp [padding], rfl⟩
  | _ => rwa [payload.wire_eq (by simp)]

theorem Payloads.wire_payload {as : List Argument} {bytes : List UInt8} (payloads : Payloads as bytes) :
    ∀ a ∈ as, Payload a a.wire := by
  induction payloads with
  | nil => simp
  | cons payload _ ih => exact List.forall_mem_cons.mpr ⟨payload.wire_payload, ih⟩

private theorem payloads_flatten {as : List Argument} {payloads : List (List UInt8)}
    (each : List.Forall₂ Payload as payloads) : Payloads as payloads.flatten := by
  induction each with
  | nil => exact .nil
  | cons payload _ ih => exact .cons payload ih

/-- What is written of a message is what it was read from exactly if these bytes are tidy. -/
theorem wire_eq_iff_tidyMessage {m : Message} {bytes : List UInt8} (read : Message.decode bytes = .ok m) :
    m.wire = bytes ↔ TidyMessage bytes := by
  constructor
  · rintro rfl
    obtain ⟨address, tags, arguments, trailing, addressForm, tagsForm, payloads, _⟩ := Message.decode_iff.mp read
    have address_eq := (stringForm_iff.mp addressForm).2
    have tags_eq := (stringForm_iff.mp tagsForm).2
    refine ⟨m, address, tags, m.arguments.map Argument.wire, addressForm, tagsForm, ?_, ?_⟩
    · rw [List.forall₂_map_right_iff, List.forall₂_same]
      intro a member
      have payload := payloads.wire_payload a member
      exact ⟨payload, payload.wire_eq_iff.mp rfl⟩
    · rw [address_eq, tags_eq, ← List.flatMap_def, Message.wire, List.append_assoc]
  · rintro ⟨n, address, tags, payloads, addressForm, tagsForm, each, rfl⟩
    have forms : List.Forall₂ Payload n.arguments payloads := each.imp fun a payload h => h.1
    have again : Message.decode (address ++ tags ++ payloads.flatten) = .ok n :=
      Message.decode_iff.mpr ⟨address, tags, _, [], addressForm, tagsForm, payloads_flatten forms, by simp⟩
    obtain rfl : m = n := by
      rw [again] at read
      exact (Except.ok.inj read).symm
    have written : List.Forall₂ (· = ·) (m.arguments.map Argument.wire) payloads :=
      List.forall₂_map_left_iff.mpr (each.imp fun a payload h => h.1.wire_eq_iff.mpr h.2)
    rw [List.forall₂_eq_eq_eq] at written
    rw [Message.wire, ← (stringForm_iff.mp addressForm).2, ← (stringForm_iff.mp tagsForm).2, List.flatMap_def, written,
      List.append_assoc]

private theorem holdsMessage_iff_of_slash {bytes part : List UInt8} (slash : bytes.head? = some 47) :
    HoldsMessage bytes part ↔ part = bytes := by
  constructor
  · intro holds
    cases holds with
    | self _ => rfl
    | element _ _ _ _ => cases slash
  · rintro rfl
    exact .self slash

theorem holdsMessage_bundle_iff {time part : List UInt8} {children : List (List UInt8)} (width : time.length = 8)
    (small : ∀ c ∈ children, c.length < UInt32.size) :
    HoldsMessage (bundleHeader ++ time ++ sized children) part ↔ ∃ child ∈ children, HoldsMessage child part := by
  constructor
  · intro holds
    generalize whole : bundleHeader ++ time ++ sized children = bytes at holds
    cases holds with
    | self slash =>
      rw [← whole] at slash
      cases slash
    | @element time' child _ children' width' small' member inner =>
      rw [List.append_assoc, List.append_assoc] at whole
      obtain ⟨_, framed⟩ := List.append_inj (List.append_cancel_left whole) (width.trans width'.symm)
      rw [sized_inj small small' framed]
      exact ⟨child, member, inner⟩
  · rintro ⟨child, member, inner⟩
    exact .element width small member inner

private theorem wireAll_length_le {children : List (List UInt8)} {ps : List Packet}
    (each : List.Forall₂ (fun child p => p.wire.length ≤ child.length) children ps) :
    (Packet.wireAll ps).length ≤ (sized children).length := by
  induction each with
  | nil => exact Nat.le_refl 0
  | cons shorter _ ih =>
    simp only [Packet.wireAll, sized_cons, List.length_append, bigEndian_length]
    omega

private theorem allWritable_of_sized {children : List (List UInt8)} {ps : List Packet}
    (each : List.Forall₂ (fun child p => child.length < UInt32.size ∧ p.wire.length ≤ child.length ∧
      (child.length < 2 ^ 31 → p.IsWritable)) children ps)
    (small : (sized children).length < 2 ^ 31) : Packet.AllWritable ps := by
  induction each with
  | nil => trivial
  | cons first _ ih =>
    obtain ⟨bound, shorter, writable⟩ := first
    simp only [sized_cons, List.length_append, bigEndian_length] at small
    exact ⟨writable (by omega), Nat.lt_of_le_of_lt shorter bound, ih (by omega)⟩

theorem wireAll_eq_sized_iff {children : List (List UInt8)} {ps : List Packet}
    (each : List.Forall₂ (fun child p => child.length < UInt32.size ∧ p.wire.length ≤ child.length ∧
      (p.wire = child ↔ ∀ part, HoldsMessage child part → TidyMessage part)) children ps) :
    Packet.wireAll ps = sized children ↔ ∀ child ∈ children, ∀ part, HoldsMessage child part → TidyMessage part := by
  induction each with
  | nil => simp [Packet.wireAll]
  | cons first _ ih =>
    obtain ⟨bound, shorter, tidy⟩ := first
    rw [Packet.wireAll, sized_cons, List.forall_mem_cons, ← tidy, ← ih]
    -- the elements written are no longer than those received, so their sizes tell them apart as well
    constructor
    · intro equal
      exact sized_cons_inj (Nat.lt_of_le_of_lt shorter bound) bound equal
    · rintro ⟨rfl, others⟩
      rw [others]

/-- What is written of a derived packet is no longer than what it was derived from. -/
theorem Derives.wire_length_le {bytes : List UInt8} {p : Packet} (derives : Derives bytes p) :
    p.wire.length ≤ bytes.length := by
  induction derives using Derives.induction with
  | message slash addressForm tagsForm payloads aligned =>
    exact Message.wire_length_le (Derives.message slash addressForm tagsForm payloads aligned).decode_message
  | bundle timeForm _ _ each =>
    have total := wireAll_length_le (each.imp fun child p h => h.2.2)
    rw [Packet.wire, ← (timeTagForm_iff.mp timeForm).2]
    simp only [List.length_append]
    omega

private theorem StringForm.isWritable {s : String} {bytes : List UInt8} (form : StringForm s bytes)
    (small : bytes.length < 2 ^ 31) : IsWritableString s := by
  obtain ⟨clean, zeros, _, rfl, _⟩ := form
  simp only [List.length_append, List.length_cons] at small
  refine ⟨?_, clean⟩
  rw [UInt32.size]
  omega

private theorem Payload.isWritable {a : Argument} {bytes : List UInt8} (payload : Payload a bytes)
    (small : bytes.length < 2 ^ 31) : a.IsWritable := by
  cases a with
  | string s => exact StringForm.isWritable payload small
  | blob data =>
    obtain ⟨_, filling, _, rfl⟩ := payload
    simp only [List.length_append] at small
    rw [Argument.IsWritable, maxBlob]
    omega
  | _ => trivial

private theorem Payloads.isWritable {as : List Argument} {bytes : List UInt8} (payloads : Payloads as bytes)
    (small : bytes.length < 2 ^ 31) : ∀ a ∈ as, a.IsWritable := by
  induction payloads with
  | nil => simp
  | cons payload _ ih =>
    rw [List.length_append] at small
    exact List.forall_mem_cons.mpr ⟨payload.isWritable (by omega), ih (by omega)⟩

/-- A packet derived from less than two gigabytes can be written. -/
theorem Derives.isWritable {bytes : List UInt8} {p : Packet} (derives : Derives bytes p)
    (small : bytes.length < 2 ^ 31) : p.IsWritable := by
  induction derives using Derives.induction with
  | message _ addressForm tagsForm payloads _ =>
    simp only [List.length_append] at small
    exact ⟨addressForm.isWritable (by omega), tagsForm.isWritable (by omega), payloads.isWritable (by omega)⟩
  | bundle _ _ _ each =>
    rw [List.length_append] at small
    refine allWritable_of_sized (each.imp fun child p h => ?_) (by omega)
    obtain ⟨bound, derives, writable⟩ := h
    exact ⟨bound, derives.wire_length_le, writable⟩

/-- What is written of a derived packet is what it was derived from exactly if every message in there is tidy. -/
theorem Derives.wire_eq_iff {bytes : List UInt8} {p : Packet} (derives : Derives bytes p) :
    p.wire = bytes ↔ ∀ part, HoldsMessage bytes part → TidyMessage part := by
  induction derives using Derives.induction with
  | message slash addressForm tagsForm payloads aligned =>
    have derives := Derives.message slash addressForm tagsForm payloads aligned
    rw [Packet.wire, wire_eq_iff_tidyMessage derives.decode_message]
    simp only [holdsMessage_iff_of_slash derives.head?_message, forall_eq]
  | @bundle t ps time children timeForm _ _ each =>
    have time_eq := (timeTagForm_iff.mp timeForm).2
    have width : time.length = 8 := by rw [time_eq, bigEndian_length]
    have bounds : ∀ c ∈ children, c.length < UInt32.size := ((List.forall₂_and_left _ _).mp each).1
    have elements := wireAll_eq_sized_iff (each.imp fun child p h => by
      obtain ⟨bound, derives, tidy⟩ := h
      exact ⟨bound, derives.wire_length_le, tidy⟩)
    rw [Packet.wire, ← time_eq, List.append_cancel_left_eq, elements]
    constructor
    -- a message in a bundle is in one of its elements
    · intro tidy part holds
      obtain ⟨child, member, inner⟩ := (holdsMessage_bundle_iff width bounds).mp holds
      exact tidy child member part inner
    · intro tidy child member part inner
      exact tidy part ((holdsMessage_bundle_iff width bounds).mpr ⟨child, member, inner⟩)

end Wire

private theorem Message.strings_clean {m : Message} (writable : m.IsWritable) : ∀ s ∈ m.strings, '\x00' ∉ s.toList := by
  have clean (s : String) (fits : IsWritableString s) : '\x00' ∉ s.toList :=
    fun member => fits.2 (Utf8.mem_encode_of_mem (by decide) member)
  obtain ⟨address, _, arguments⟩ := writable
  refine List.forall_mem_cons.mpr ⟨clean _ address, ?_⟩
  intro s member
  obtain ⟨a, argument, text⟩ := List.mem_filterMap.mp member
  cases a <;> simp only [Argument.asString?, reduceCtorEq, Option.some.injEq] at text
  subst text
  exact clean _ (arguments _ argument)

mutual

private theorem Packet.messages_isWritable : ∀ p : Packet, p.IsWritable → ∀ m ∈ p.messages, m.IsWritable
  | .message m, writable => by
    intro n member
    rw [Packet.messages, List.mem_singleton] at member
    exact member ▸ writable
  | .bundle t ps, writable => Packet.messagesAll_isWritable ps writable

private theorem Packet.messagesAll_isWritable : ∀ ps : List Packet, Packet.AllWritable ps →
    ∀ m ∈ Packet.messagesAll ps, m.IsWritable
  | [], _ => by simp [Packet.messagesAll]
  | p :: ps, ⟨writable, _, writableAll⟩ =>
    List.forall_mem_append.mpr ⟨p.messages_isWritable writable, Packet.messagesAll_isWritable ps writableAll⟩

end

/-- Whatever is decoded from less than two gigabytes has addresses behind slashes, canonical time tags, no zero in any
    text and bundles at most thirty-two deep. It can be encoded, to bytes that are no longer and decode to the same
    packet, and that are the ones received exactly if every message in these ends with its last argument and fills up
    its blobs with zeros. So decoding and encoding normalises what is accepted, and does nothing the second time. -/
theorem Packet.normalise_of_decode (bytes : List UInt8) (p : Packet) (small : bytes.length < 2 ^ 31)
    (decoded : decode bytes = .ok p) :
    p.IsAddressed ∧ p.IsCanonical ∧ (∀ m ∈ p.messages, ∀ s ∈ m.strings, '\x00' ∉ s.toList) ∧ p.depth ≤ maxDepth ∧
    ∃ normal, p.encode = .ok normal ∧ normal.length ≤ bytes.length ∧ decode normal = .ok p ∧
      (normal = bytes ↔ ∀ part, HoldsMessage bytes part → TidyMessage part) ∧
      normalise bytes = .ok normal ∧ normalise normal = .ok normal := by
  obtain ⟨derives, shallow⟩ := decodeWithin_iff.mp decoded
  obtain ⟨addressed, canonical⟩ := derives.sound
  have writable := derives.isWritable small
  have encoded : p.encode = .ok p.wire := Packet.encode_iff.mpr ⟨writable, rfl⟩
  have again : decode p.wire = .ok p := Packet.decode_of_encode encoded addressed canonical shallow
  have texts : ∀ m ∈ p.messages, ∀ s ∈ m.strings, '\x00' ∉ s.toList :=
    fun m member => Message.strings_clean (p.messages_isWritable writable m member)
  refine ⟨addressed, canonical, texts, shallow, p.wire, encoded, derives.wire_length_le, again, derives.wire_eq_iff,
    ?_, ?_⟩
  · rw [normalise, decoded]
    exact encoded
  · rw [normalise, again]
    exact encoded

theorem Packet.normalise_untidy :
    let untidy := [47, 0, 0, 0] ++ [44, 98, 78, 0] ++ ([0, 0, 0, 2, 7, 8, 1, 2] ++ ([] ++ [])) ++ [9, 9, 9, 9]
    let bytes := bundleHeader ++ bigEndian 8 1 ++ (bigEndian 4 untidy.length ++ untidy ++ [])
    let p := bundle .immediate [message ⟨"/", [.blob [7, 8], .nil]⟩]
    bytes.length < 2 ^ 31 ∧ decode bytes = .ok p ∧
      ∃ normal, p.encode = .ok normal ∧ normal ≠ bytes ∧ normalise bytes = .ok normal ∧
        normalise normal = .ok normal := by
  intro untidy bytes p
  have address : StringForm "/" [47, 0, 0, 0] := ⟨by decide, 2, by decide, rfl, rfl⟩
  have tags : StringForm ",bN" [44, 98, 78, 0] := ⟨by decide, 0, by decide, rfl, rfl⟩
  have blob : Payload (.blob [7, 8]) [0, 0, 0, 2, 7, 8, 1, 2] := by exact ⟨by decide, [1, 2], rfl, rfl⟩
  have first : Derives untidy (message ⟨"/", [.blob [7, 8], .nil]⟩) :=
    .message rfl address tags (.cons blob (.cons rfl .nil)) rfl
  have derives : Derives bytes p := .bundle ⟨1, rfl, rfl⟩ (.cons (by decide) first .nil) (by decide)
  have decoded : decode bytes = .ok p := decodeWithin_iff.mpr ⟨derives, by decide⟩
  have written : p.encode = .ok p.wire := by rfl
  obtain ⟨_, _, _, _, normal, encoded, _, _, _, once, twice⟩ :=
    Packet.normalise_of_decode bytes p (by decide) decoded
  obtain rfl : p.wire = normal := Except.ok.inj (written.symm.trans encoded)
  exact ⟨by decide, decoded, p.wire, written, by decide +kernel, once, twice⟩

end OpenSound
