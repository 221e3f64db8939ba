import OpenSound.Proofs.Wire.Writing

/-!
# Where elements stand in a written packet

A packet is written behind whatever a buffer holds, and the sizes of its elements are filled in afterwards. In the
finished buffer every element, at any depth, stands behind four bytes with the length of what it alone is encoded as,
and those bytes follow.
-/

namespace OpenSound

open Wire

mutual

/-- The elements of the bundles in a packet, at any depth, each with the place of its size in a buffer in which the
    packet begins at an offset. -/
def Packet.slots (offset : Nat) : Packet → List (Nat × Packet)
  | .message _ => []
  | .bundle _ elements => Packet.slotsAll (offset + 16) elements

def Packet.slotsAll (offset : Nat) : List Packet → List (Nat × Packet)
  | [] => []
  | p :: ps => (offset, p) :: (p.slots (offset + 4) ++ Packet.slotsAll (offset + 4 + p.wire.length) ps)

end

/-- A packet that stands whole in a buffer, behind its size at a place. -/
structure Packet.StandsAt (buffer : List UInt8) (place : Nat) (p : Packet) : Prop where
  writable : p.IsWritable
  small : p.wire.length < UInt32.size
  framed : ∃ front back, front.length = place ∧ buffer = front ++ bigEndian 4 p.wire.length ++ p.wire ++ back

theorem Packet.StandsAt.size {buffer : List UInt8} {place : Nat} {p : Packet} (stands : p.StandsAt buffer place) :
    ofBigEndian ((buffer.drop place).take 4) = p.wire.length := by
  obtain ⟨front, back, rfl, rfl⟩ := stands.framed
  have behind : (front ++ bigEndian 4 p.wire.length ++ p.wire ++ back).drop front.length =
      bigEndian 4 p.wire.length ++ (p.wire ++ back) := by simp
  rw [behind, List.take_left' (bigEndian_length 4 _), ofBigEndian_bigEndian]
  exact Nat.mod_eq_of_lt stands.small

theorem Packet.StandsAt.bytes {buffer : List UInt8} {place : Nat} {p : Packet} (stands : p.StandsAt buffer place) :
    (buffer.drop (place + 4)).take p.wire.length = p.wire := by
  obtain ⟨front, back, rfl, rfl⟩ := stands.framed
  have behind : (front ++ bigEndian 4 p.wire.length ++ p.wire ++ back).drop (front.length + 4) = p.wire ++ back := by
    rw [List.append_assoc]
    exact List.drop_left' (by simp)
  rw [behind, List.take_left]

mutual

/-- In a buffer that holds a packet's bytes, the elements of its bundles stand where their slots are. -/
theorem Packet.standsAt_of_mem_slots : ∀ (p : Packet) (front back : List UInt8), p.IsWritable →
    ∀ slot ∈ p.slots front.length, slot.2.StandsAt (front ++ p.wire ++ back) slot.1
  | .message m, front, back, _ => by
    intro slot member
    cases member
  | .bundle t ps, front, back, writable => by
    intro slot member
    have offset : front.length + 16 = (front ++ bundleHeader ++ bigEndian 8 t.toRaw.toNat).length := by
      simp [bundleHeader]
    rw [Packet.slots, offset] at member
    have stands := Packet.standsAt_of_mem_slotsAll ps _ back writable slot member
    rw [Packet.wire]
    simpa only [List.append_assoc] using stands

private theorem Packet.standsAt_of_mem_slotsAll : ∀ (ps : List Packet)
    (front back : List UInt8), Packet.AllWritable ps →
    ∀ slot ∈ Packet.slotsAll front.length ps, slot.2.StandsAt (front ++ Packet.wireAll ps ++ back) slot.1
  | [], front, back, _ => by
    intro slot member
    cases member
  | p :: ps, front, back, ⟨writable, small, writableAll⟩ => by
    intro slot member
    -- an element's own slots and those of the later ones are found behind longer fronts
    have inside : front.length + 4 = (front ++ bigEndian 4 p.wire.length).length := by simp
    have behind : front.length + 4 + p.wire.length = (front ++ bigEndian 4 p.wire.length ++ p.wire).length := by
      simp [Nat.add_assoc]
    rw [Packet.slotsAll, behind, inside, List.mem_cons, List.mem_append] at member
    rw [Packet.wireAll]
    rcases member with rfl | deeper | later
    · exact ⟨writable, small, front, Packet.wireAll ps ++ back, rfl, by simp only [List.append_assoc]⟩
    · have stands := p.standsAt_of_mem_slots _ (Packet.wireAll ps ++ back) writable slot deeper
      simpa only [List.append_assoc] using stands
    · have stands := Packet.standsAt_of_mem_slotsAll ps _ back writableAll slot later
      simpa only [List.append_assoc] using stands

end

private theorem Packet.wire_length_pos (p : Packet) : 0 < p.wire.length := by
  cases p with
  | message m => simp [Packet.wire, Message.wire, stringBytes]
  | bundle t ps => simp [Packet.wire, bundleHeader]

/-- A packet that is written behind a buffer leaves it as it was and appends just its own bytes, a positive multiple of
    four. At the slot of each element, at any depth, stands the length of the element's own encoding, and behind it
    that encoding, which is a positive multiple of four as well. -/
theorem Packet.write_fills_slots (p : Packet) (buffer written : List UInt8)
    (done : p.write buffer = (.ok (), written)) :
    written = buffer ++ p.wire ∧ p.encode = .ok p.wire ∧ 0 < p.wire.length ∧ p.wire.length % 4 = 0 ∧
      ∀ place q, (place, q) ∈ p.slots buffer.length → q.encode = .ok q.wire ∧
        ofBigEndian ((written.drop place).take 4) = q.wire.length ∧
        (written.drop (place + 4)).take q.wire.length = q.wire ∧ 0 < q.wire.length ∧ q.wire.length % 4 = 0 := by
  obtain ⟨writable, rfl⟩ := (p.write_appends buffer written).mp done
  refine ⟨rfl, Packet.encode_iff.mpr ⟨writable, rfl⟩, p.wire_length_pos, p.wire_aligned, ?_⟩
  intro place q member
  have stands := p.standsAt_of_mem_slots buffer [] writable (place, q) member
  rw [List.append_nil] at stands
  exact ⟨Packet.encode_iff.mpr ⟨stands.writable, rfl⟩, stands.size, stands.bytes, q.wire_length_pos, q.wire_aligned⟩

theorem Packet.write_fills_slots_nested :
    let inner := message ⟨"/b", [.string "x", .bool true]⟩
    let p := bundle ⟨3, 4, false⟩ [message ⟨"/a", [.blob [7]]⟩, bundle .immediate [inner]]
    ∃ written, p.write [1, 2, 3] = (.ok (), written) ∧ written.take 3 = [1, 2, 3] ∧
      ofBigEndian ((written.drop 59).take 4) = inner.wire.length ∧
      (written.drop 63).take inner.wire.length = inner.wire := by
  intro inner p
  have done : p.write [1, 2, 3] = (.ok (), [1, 2, 3] ++ p.wire) := by rfl
  obtain ⟨kept, _, _, _, slots⟩ := Packet.write_fills_slots p [1, 2, 3] _ done
  have member : (59, inner) ∈ p.slots [1, 2, 3].length := .tail _ (.tail _ (.head _))
  obtain ⟨_, size, bytes, _⟩ := slots 59 inner member
  exact ⟨_, done, rfl, size, bytes⟩

end OpenSound
