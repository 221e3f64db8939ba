import OpenSound.Proofs.Wire.RoundTrip

/-!
# Packets with canonical time tags

A time tag is read as the canonical one with the same 64-bit value. So what is written of a packet is, in the grammar,
that packet with each of its time tags made canonical, which has the same bytes, the same depth and the same addresses.
-/

namespace OpenSound

open Wire

/-- The tag that is read where this one was written. -/
def TimeTag.canonical (t : TimeTag) : TimeTag := ofRaw t.toRaw

private theorem TimeTag.canonical_isCanonical (t : TimeTag) : t.canonical.IsCanonical := ofRaw_isCanonical t.toRaw

theorem TimeTag.canonical_eq_self_iff {t : TimeTag} : t.canonical = t ↔ t.IsCanonical := ofRaw_toRaw_iff t

@[simp] theorem TimeTag.toRaw_canonical (t : TimeTag) : t.canonical.toRaw = t.toRaw := toRaw_ofRaw t.toRaw

/-- An argument with its time tag made canonical, if it has one. -/
def Argument.canonical : Argument → Argument
  | .timeTag t => .timeTag t.canonical
  | a => a

theorem Argument.canonical_eq_self_iff {a : Argument} :
    a.canonical = a ↔ ∀ t, a.timeTag? = some t → t.IsCanonical := by
  cases a <;> simp [canonical, timeTag?, TimeTag.canonical_eq_self_iff]

@[simp] theorem Argument.tag_canonical (a : Argument) : a.canonical.tag = a.tag := by
  cases a <;> rfl

@[simp] theorem Argument.wire_canonical (a : Argument) : a.canonical.wire = a.wire := by
  cases a with
  | timeTag t => simp only [Argument.canonical, Argument.wire, TimeTag.toRaw_canonical]
  | _ => rfl

private theorem Argument.isWritable_canonical {a : Argument} : a.canonical.IsWritable ↔ a.IsWritable := by
  cases a <;> rfl

private theorem Argument.timeTag?_canonical (a : Argument) :
    a.canonical.timeTag? = a.timeTag?.map TimeTag.canonical := by
  cases a <;> rfl

/-- What is written of an argument is a payload of it with a canonical time tag. -/
theorem Argument.wire_payload_canonical {a : Argument} (writable : a.IsWritable) : Payload a.canonical a.wire := by
  rw [← a.wire_canonical]
  refine a.canonical.wire_payload (isWritable_canonical.mpr writable) fun t tag => ?_
  rw [a.timeTag?_canonical, Option.map_eq_some_iff] at tag
  obtain ⟨u, -, rfl⟩ := tag
  exact u.canonical_isCanonical

/-- A message with its time tags made canonical. -/
def Message.canonical (m : Message) : Message := ⟨m.address, m.arguments.map Argument.canonical⟩

@[simp] theorem Message.tags_canonical (m : Message) : m.canonical.tags = m.tags := by
  rw [Message.tags, Message.canonical, List.map_map, Message.tags]
  congr 3
  exact funext Argument.tag_canonical

@[simp] theorem Message.wire_canonical (m : Message) : m.canonical.wire = m.wire := by
  rw [Message.wire, tags_canonical, Message.canonical, List.flatMap_map, Message.wire]
  simp only [Argument.wire_canonical]

private theorem Message.isWritable_canonical {m : Message} : m.canonical.IsWritable ↔ m.IsWritable := by
  rw [Message.IsWritable, tags_canonical, Message.canonical, List.forall_mem_map, Message.IsWritable]
  simp only [Argument.isWritable_canonical]

theorem Message.timeTags_canonical (m : Message) : m.canonical.timeTags = m.timeTags.map TimeTag.canonical := by
  rw [Message.timeTags, Message.canonical, List.filterMap_map, Message.timeTags, List.map_filterMap]
  congr 1
  exact funext Argument.timeTag?_canonical

namespace Packet

mutual

/-- A packet with all its time tags made canonical. -/
def canonical : Packet → Packet
  | message m => message m.canonical
  | bundle t elements => bundle t.canonical (canonicalAll elements)

def canonicalAll : List Packet → List Packet
  | [] => []
  | p :: ps => p.canonical :: canonicalAll ps

end

mutual

@[simp] theorem wire_canonical : ∀ p : Packet, p.canonical.wire = p.wire
  | message m => m.wire_canonical
  | bundle t ps => by rw [canonical, wire, wire, TimeTag.toRaw_canonical, wireAll_canonical ps]

@[simp] theorem wireAll_canonical : ∀ ps : List Packet, wireAll (canonicalAll ps) = wireAll ps
  | [] => rfl
  | p :: ps => by rw [canonicalAll, wireAll, wireAll, wire_canonical p, wireAll_canonical ps]

end

mutual

@[simp] theorem depth_canonical : ∀ p : Packet, p.canonical.depth = p.depth
  | message _ => rfl
  | bundle t ps => by rw [canonical, depth, depth, depthAll_canonical ps]

@[simp] theorem depthAll_canonical : ∀ ps : List Packet, depthAll (canonicalAll ps) = depthAll ps
  | [] => rfl
  | p :: ps => by rw [canonicalAll, depthAll, depthAll, depth_canonical p, depthAll_canonical ps]

end

mutual

private theorem isWritable_canonical : ∀ {p : Packet}, p.canonical.IsWritable ↔ p.IsWritable
  | message _ => Message.isWritable_canonical
  | bundle _ _ => allWritable_canonical

private theorem allWritable_canonical : ∀ {ps : List Packet}, AllWritable (canonicalAll ps) ↔ AllWritable ps
  | [] => Iff.rfl
  | p :: ps => by
    rw [canonicalAll, AllWritable, AllWritable, isWritable_canonical, wire_canonical, allWritable_canonical]

end

mutual

private theorem messages_canonical : ∀ p : Packet, p.canonical.messages = p.messages.map Message.canonical
  | message _ => rfl
  | bundle _ ps => messagesAll_canonical ps

private theorem messagesAll_canonical : ∀ ps : List Packet,
    messagesAll (canonicalAll ps) = (messagesAll ps).map Message.canonical
  | [] => rfl
  | p :: ps => by
    rw [canonicalAll, messagesAll, messagesAll, List.map_append, messages_canonical p, messagesAll_canonical ps]

end

mutual

theorem timeTags_canonical : ∀ p : Packet, p.canonical.timeTags = p.timeTags.map TimeTag.canonical
  | message m => m.timeTags_canonical
  | bundle _ ps => by rw [canonical, timeTags, timeTags, List.map_cons, timeTagsAll_canonical ps]

private theorem timeTagsAll_canonical : ∀ ps : List Packet,
    timeTagsAll (canonicalAll ps) = (timeTagsAll ps).map TimeTag.canonical
  | [] => rfl
  | p :: ps => by
    rw [canonicalAll, timeTagsAll, timeTagsAll, List.map_append, timeTags_canonical p, timeTagsAll_canonical ps]

end

private theorem canonical_isCanonical (p : Packet) : p.canonical.IsCanonical := by
  rw [IsCanonical, timeTags_canonical, List.forall_mem_map]
  exact fun t _ => t.canonical_isCanonical

private theorem isAddressed_canonical {p : Packet} : p.canonical.IsAddressed ↔ p.IsAddressed := by
  rw [IsAddressed, messages_canonical, List.forall_mem_map, IsAddressed]
  rfl

/-- What is written of a packet with addresses behind slashes is, in the grammar, that packet with its time tags made
    canonical. -/
theorem wire_derives_canonical {p : Packet} (writable : p.IsWritable) (addressed : p.IsAddressed) :
    Derives p.wire p.canonical := by
  rw [← wire_canonical]
  exact p.canonical.wire_derives (isWritable_canonical.mpr writable) (isAddressed_canonical.mpr addressed)
    p.canonical_isCanonical

end Packet

end OpenSound
