import OpenSound.Proofs.Wire.Elements
import OpenSound.Proofs.Wire.RoundTrip

/-!
# Beginnings of written packets

Two packets of the kind that the decoder gives back are never written as the same bytes, however deep they are nested.
A beginning of such bytes that is not all of them is no packet, unless they are a bundle and end behind the size and
the bytes of one of its elements, or behind its time tag: then it is the bundle with fewer elements.
-/

namespace OpenSound

open Wire

namespace Wire

theorem Derives.head?_of_prefix {bytes front : List UInt8} {p : Packet} (derives : Derives front p)
    (before : front <+: bytes) : bytes.head? = front.head? := by
  obtain ⟨rest, rfl⟩ := before
  have pos := derives.length_pos
  cases front with
  | nil => simp at pos
  | cons first front => rfl

end Wire

/-- What is read as a message is read as that message whatever follows. -/
theorem Message.decode_append {bytes : List UInt8} {m : Message} (read : Message.decode bytes = .ok m)
    (rest : List UInt8) : Message.decode (bytes ++ rest) = .ok m := by
  obtain ⟨address, tags, arguments, trailing, addressForm, tagsForm, payloads, rfl⟩ := Message.decode_iff.mp read
  exact Message.decode_iff.mpr
    ⟨address, tags, arguments, trailing ++ rest, addressForm, tagsForm, payloads, List.append_assoc ..⟩

/-- A beginning of a written message that is read as any message is all of it. -/
theorem Message.eq_of_decode_prefix {m n : Message} {front : List UInt8} (derives : Derives m.wire (.message m))
    (before : front <+: m.wire) (read : Message.decode front = .ok n) : front = m.wire := by
  have same : n = m := by
    -- with the rest behind it, the front is still read as `n`
    obtain ⟨rest, whole⟩ := before
    have longer := Message.decode_append read rest
    rw [whole, derives.decode_message] at longer
    exact (Except.ok.inj longer).symm
  subst same
  exact before.eq_of_length_le (Message.wire_length_le read)

/-- A message begins with a slash and a bundle does not, so a beginning of a message can only be a message. -/
theorem Packet.not_derives_prefix_of_message {m : Message} {front : List UInt8} (derives : Derives m.wire (.message m))
    (before : front <+: m.wire) (strict : front ≠ m.wire) (q : Packet) : ¬Derives front q := by
  intro found
  cases q with
  | message n => exact strict (Message.eq_of_decode_prefix derives before found.decode_message)
  | bundle t ps =>
    have head := found.head?_of_prefix before
    rw [derives.head?_message, found.head?_bundle] at head
    cases head

private theorem Packet.wireAll_append (ps qs : List Packet) :
    Packet.wireAll (ps ++ qs) = Packet.wireAll ps ++ Packet.wireAll qs := by
  simp only [Packet.wireAll_eq_sized, List.map_append, sized_append]

/-- What a bundle is written as with fewer elements derives the bundle with fewer elements. -/
theorem Packet.wire_take_derives {t : TimeTag} {ps : List Packet} (writable : (bundle t ps).IsWritable)
    (addressed : (bundle t ps).IsAddressed) (canonical : (bundle t ps).IsCanonical) (k : Nat) :
    Derives (bundle t (ps.take k)).wire (bundle t (ps.take k)) := by
  refine Packet.wire_derives _ ?_ ?_ ?_
  · refine Packet.allWritable_iff.mpr fun p member => ?_
    exact Packet.allWritable_iff.mp writable p (List.mem_of_mem_take member)
  · intro m member
    obtain ⟨p, element, inside⟩ := mem_messagesAll.mp member
    exact addressed m (mem_messagesAll.mpr ⟨p, List.mem_of_mem_take element, inside⟩)
  · obtain ⟨own, others⟩ := List.forall_mem_cons.mp canonical
    refine List.forall_mem_cons.mpr ⟨own, fun u member => ?_⟩
    obtain ⟨p, element, inside⟩ := mem_timeTagsAll.mp member
    exact others u (mem_timeTagsAll.mpr ⟨p, List.mem_of_mem_take element, inside⟩)

private theorem Packet.depth_take_le {t : TimeTag} {ps : List Packet} (k : Nat) :
    (bundle t (ps.take k)).depth ≤ (bundle t ps).depth := by
  have all : ∀ p ∈ ps, p.depth ≤ depthAll ps := depthAll_le_iff.mp le_rfl
  exact Nat.succ_le_succ (depthAll_le_iff.mpr fun p member => all p (List.mem_of_mem_take member))

/-- A beginning of a written bundle that derives a packet is the bundle with its first elements. -/
theorem Packet.eq_take_of_derives_prefix {t : TimeTag} {ps : List Packet} {front : List UInt8} {q : Packet}
    (writable : (bundle t ps).IsWritable) (derives : Derives front q) (before : front <+: (bundle t ps).wire) :
    ∃ k ≤ ps.length, front = (bundle t (ps.take k)).wire := by
  have head := derives.head?_of_prefix before
  cases q with
  | message n =>
    rw [derives.head?_message] at head
    cases head
  | bundle u qs =>
    cases derives with
    | @bundle _ _ time elements timeForm derivesAll _ =>
      obtain ⟨children, each, rfl⟩ := derivesAll_iff.mp derivesAll
      obtain ⟨rest, whole⟩ := before
      rw [Packet.wire, Packet.wireAll_eq_sized, List.append_assoc, List.append_assoc, List.append_assoc] at whole
      have behind := List.append_cancel_left whole
      have width : time.length = (bigEndian 8 t.toRaw.toNat).length := by
        rw [(timeTagForm_iff.mp timeForm).2, bigEndian_length, bigEndian_length]
      obtain ⟨rfl, framed⟩ := List.append_inj behind width
      -- both lists of elements are cut by their sizes, so one begins the other
      have small : ∀ c ∈ children, c.length < UInt32.size :=
        ((List.forall₂_and_left _ _).mp each).1
      have small' : ∀ c ∈ ps.map Packet.wire, c.length < UInt32.size := by
        intro c member
        obtain ⟨p, element, rfl⟩ := List.mem_map.mp member
        exact (Packet.allWritable_iff.mp writable p element).2
      have first := prefix_of_sized_prefix small small' ⟨rest, framed⟩
      refine ⟨children.length, by simpa using first.length_le, ?_⟩
      rw [Packet.wire, Packet.wireAll_eq_sized, List.map_take, ← List.prefix_iff_eq_take.mp first]

/-- Whole elements never end inside an element. -/
theorem Packet.wireAll_take_ne {front back : List Packet} {inner : Packet} {part : List UInt8}
    (before : part <+: inner.wire) (strict : part ≠ inner.wire) (k : Nat) :
    Packet.wireAll ((front ++ inner :: back).take k) ≠
      Packet.wireAll front ++ bigEndian 4 inner.wire.length ++ part := by
  intro equal
  have short : part.length < inner.wire.length :=
    Nat.lt_of_le_of_ne before.length_le fun same => strict (before.eq_of_length same)
  have lengths := congrArg List.length equal
  -- the first `k` elements end in front of `inner` or not before its end, so never at the cut
  by_cases early : k ≤ front.length
  · have split : Packet.wireAll front = Packet.wireAll (front.take k) ++ Packet.wireAll (front.drop k) := by
      rw [← Packet.wireAll_append, List.take_append_drop]
    rw [List.take_append_of_le_length early, split] at lengths
    simp only [List.length_append, bigEndian_length] at lengths
    omega
  · obtain ⟨n, rfl⟩ : ∃ n, k = front.length + (n + 1) := ⟨k - front.length - 1, by omega⟩
    rw [List.take_length_add_append, List.take_succ_cons, Packet.wireAll_append, Packet.wireAll] at lengths
    simp only [List.length_append, bigEndian_length] at lengths
    omega

private theorem exists_error {α : Type} {outcome : Except Error α} (never : ∀ a, outcome ≠ .ok a) :
    ∃ e, outcome = .error e := by
  cases outcome with
  | error e => exact ⟨e, rfl⟩
  | ok a => exact absurd rfl (never a)

/-- Of an encoded packet that the decoder gives back, a beginning that is not all of it decodes to exactly one kind of
    packet: the packet is a bundle, the beginning ends behind its header and some of its elements, each whole behind its
    size, and the bundle with these elements is decoded. So an encoded message cut short is an error, also if it is read
    as a message only, and so is a bundle cut inside one of its elements. -/
theorem Packet.decode_prefix_iff (p : Packet) (bytes front : List UInt8) (encoded : p.encode = .ok bytes)
    (addressed : p.IsAddressed) (canonical : p.IsCanonical) (shallow : p.depth ≤ maxDepth)
    (before : front <+: bytes) (strict : front ≠ bytes) :
    (∀ q, decode front = .ok q ↔ ∃ t ps k, p = bundle t ps ∧ k < ps.length ∧ q = bundle t (ps.take k) ∧
      front = bundleHeader ++ bigEndian 8 t.toRaw.toNat ++ wireAll (ps.take k)) ∧
    (∀ m, p = message m → (∃ e, decode front = .error e) ∧ ∃ e, Message.decode front = .error e) ∧
    (∀ t early inner late part, p = bundle t (early ++ inner :: late) → part <+: inner.wire → part ≠ inner.wire →
      front = bundleHeader ++ bigEndian 8 t.toRaw.toNat ++ (wireAll early ++ bigEndian 4 inner.wire.length ++ part) →
      ∃ e, decode front = .error e) := by
  obtain ⟨writable, rfl⟩ := Packet.encode_iff.mp encoded
  have derives := p.wire_derives writable addressed canonical
  have accepted : ∀ q, decode front = .ok q ↔ ∃ t ps k, p = bundle t ps ∧ k < ps.length ∧
      q = bundle t (ps.take k) ∧ front = bundleHeader ++ bigEndian 8 t.toRaw.toNat ++ wireAll (ps.take k) := by
    intro q
    constructor
    · intro decoded
      have found := (decodeWithin_iff.mp decoded).1
      cases p with
      | message m => exact absurd found (Packet.not_derives_prefix_of_message derives before strict q)
      | bundle t ps =>
        obtain ⟨k, bound, rfl⟩ := Packet.eq_take_of_derives_prefix writable found before
        have whole : k ≠ ps.length := by
          rintro rfl
          exact strict (by rw [List.take_length])
        have taken := Packet.wire_take_derives writable addressed canonical k
        exact ⟨t, ps, k, rfl, Nat.lt_of_le_of_ne bound whole, found.unique taken, rfl⟩
    · rintro ⟨t, ps, k, rfl, _, rfl, rfl⟩
      have taken := Packet.wire_take_derives writable addressed canonical k
      exact decodeWithin_iff.mpr ⟨taken, (Packet.depth_take_le k).trans shallow⟩
  refine ⟨accepted, ?_, ?_⟩
  · rintro m rfl
    refine ⟨exists_error fun q decoded => ?_, exists_error fun n read => ?_⟩
    · obtain ⟨_, _, _, other, _⟩ := (accepted q).mp decoded
      cases other
    · exact strict (Message.eq_of_decode_prefix derives before read)
  · rintro t early inner late part rfl inside cut rfl
    refine exists_error fun q decoded => ?_
    obtain ⟨_, _, k, same, _, _, equal⟩ := (accepted q).mp decoded
    cases same
    exact Packet.wireAll_take_ne inside cut k (List.append_cancel_left equal).symm

theorem Packet.decode_prefix_nested :
    let a := message ⟨"/a", [.blob [7], .timeTag ⟨5, 6, false⟩]⟩
    let p := bundle ⟨3, 4, false⟩ [a, bundle .immediate [message ⟨"/b", [.string "x"]⟩]]
    decode (p.wire.take 44) = .ok (bundle ⟨3, 4, false⟩ [a]) ∧ ∃ e, decode (p.wire.take 68) = .error e := by
  intro a p
  have encoded : p.encode = .ok p.wire := by rfl
  have addressed : p.IsAddressed := by decide +kernel
  have canonical : p.IsCanonical := by decide +kernel
  have spec (n : Nat) := Packet.decode_prefix_iff p p.wire (p.wire.take n) encoded addressed canonical
    (by decide +kernel) (List.take_prefix n p.wire)
  constructor
  · exact ((spec 44 (by decide +kernel)).1 _).mpr ⟨_, _, 1, rfl, by decide, rfl, by rfl⟩
  · have inside : (bundle .immediate [message ⟨"/b", [.string "x"]⟩]).wire.take 20 <+: _ := List.take_prefix 20 _
    exact (spec 68 (by decide +kernel)).2.2 _ [a] _ [] _ rfl inside (by decide +kernel) (by rfl)

/-- Two packets with addresses behind slashes and canonical time tags are encoded as the same bytes only if they are the
    same packet, floats bit for bit, whether or not they are nested too deep to be decoded. -/
theorem Packet.encode_eq_encode_iff (p q : Packet) (bytes bytes' : List UInt8) (encoded : p.encode = .ok bytes)
    (encoded' : q.encode = .ok bytes') (addressed : p.IsAddressed) (addressed' : q.IsAddressed)
    (canonical : p.IsCanonical) (canonical' : q.IsCanonical) : p.encode = q.encode ↔ p = q := by
  constructor
  · intro same
    obtain ⟨writable, rfl⟩ := Packet.encode_iff.mp encoded
    obtain ⟨writable', rfl⟩ := Packet.encode_iff.mp encoded'
    rw [encoded, encoded', Except.ok.injEq] at same
    have derives := p.wire_derives writable addressed canonical
    rw [same] at derives
    exact derives.unique (q.wire_derives writable' addressed' canonical')
  · rintro rfl
    rfl

theorem Packet.encode_ne_encode_deep :
    let p := (message ⟨"/a", [.float32 0x7fc00000]⟩).wrapped 33
    let q := (message ⟨"/a", [.float32 0x7fc00001]⟩).wrapped 33
    maxDepth < p.depth ∧ p.encode ≠ q.encode := by
  intro p q
  have plain (bits : UInt32) : (message ⟨"/a", [.float32 bits]⟩).IsWritable := (Packet.encode_iff.mp rfl).1
  have encoded : p.encode = .ok p.wire := Packet.encode_iff.mpr ⟨Packet.isWritable_wrapped (plain _) (by decide), rfl⟩
  have encoded' : q.encode = .ok q.wire := Packet.encode_iff.mpr ⟨Packet.isWritable_wrapped (plain _) (by decide), rfl⟩
  have distinct : p ≠ q := fun same => absurd (congrArg messages same) (by decide +kernel)
  refine ⟨by decide +kernel, fun equal => distinct ?_⟩
  exact (Packet.encode_eq_encode_iff p q _ _ encoded encoded' (by decide +kernel) (by decide +kernel)
    (by decide +kernel) (by decide +kernel)).mp equal

-- Without a slash in front, a message can have the bytes of a bundle.
example : (Packet.message ⟨"#bundle", List.replicate 6 .nil⟩).encode =
    (Packet.bundle ⟨0x2c4e4e4e, 0x4e4e4e00, false⟩ []).encode := by
  rfl

end OpenSound
