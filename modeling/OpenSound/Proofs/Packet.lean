import Mathlib.Data.List.Forall2
import Mathlib.Tactic.SplitIfs
import OpenSound.Packet

/-!
# The contents of packets

What a packet holds at any depth: its messages, its time tags, and how deep its bundles are nested. Two packets
that are equal as values agree in all of this, and a packet equals itself as long as it holds no float that is not
a number.
-/

namespace OpenSound

namespace BinaryFormat

/-- A bit pattern that does not stand for a number. -/
def IsNan (f : BinaryFormat) (bits : Nat) : Prop := ∃ negative, f.value bits = .nan negative

instance (f : BinaryFormat) (bits : Nat) : Decidable (f.IsNan bits) :=
  inferInstanceAs (Decidable (∃ negative, f.value bits = .nan negative))

private theorem equal_not_nan {f : BinaryFormat} {a b : Nat} (same : f.equal a b = true) : ¬f.IsNan b := by
  rintro ⟨negative, nan⟩
  unfold equal at same
  rw [nan] at same
  cases value : f.value a <;> simp [value] at same

theorem equal_self_iff {f : BinaryFormat} {a : Nat} : f.equal a a = true ↔ ¬f.IsNan a := by
  refine ⟨equal_not_nan, fun number => ?_⟩
  unfold equal
  split
  · rename_i negative nan
    exact absurd ⟨negative, nan⟩ number
  · rename_i negative nan _
    exact absurd ⟨negative, nan⟩ number
  · rfl
  · exact beq_self_eq_true a

end BinaryFormat

namespace Argument

/-- A floating point argument that is not a number. -/
def IsNan : Argument → Prop
  | float32 bits => BinaryFormat.single.IsNan bits.toNat
  | float64 bits => BinaryFormat.double.IsNan bits.toNat
  | _ => False

instance : DecidablePred IsNan
  | float32 bits => inferInstanceAs (Decidable (BinaryFormat.single.IsNan bits.toNat))
  | float64 bits => inferInstanceAs (Decidable (BinaryFormat.double.IsNan bits.toNat))
  | nil | int32 _ | string _ | blob _ | bool _ | int64 _ | timeTag _ => .isFalse id

def timeTag? : Argument → Option TimeTag
  | timeTag t => some t
  | _ => none

theorem same_spec {a b : Argument} (same : a.same b = true) : a.timeTag? = b.timeTag? ∧ ¬b.IsNan := by
  unfold Argument.same at same
  split at same
  · exact ⟨rfl, BinaryFormat.equal_not_nan same⟩
  · exact ⟨rfl, BinaryFormat.equal_not_nan same⟩
  · rename_i single double
    obtain rfl := eq_of_beq same
    refine ⟨rfl, fun nan => ?_⟩
    cases a with
    | float32 bits => exact single bits bits rfl rfl
    | float64 bits => exact double bits bits rfl rfl
    | _ => exact nan

theorem same_self_iff {a : Argument} : a.same a = true ↔ ¬a.IsNan := by
  refine ⟨fun same => (same_spec same).2, fun number => ?_⟩
  cases a with
  | float32 bits => exact BinaryFormat.equal_self_iff.mpr number
  | float64 bits => exact BinaryFormat.equal_self_iff.mpr number
  | _ => exact beq_self_eq_true _

end Argument

namespace Message

/-- The time tags among the arguments. -/
def timeTags (m : Message) : List TimeTag := m.arguments.filterMap Argument.timeTag?

theorem same_iff {a b : Message} :
    a.same b = true ↔ a.address = b.address ∧ List.Forall₂ (fun x y => x.same y = true) a.arguments b.arguments := by
  rw [List.forall₂_iff_zip]
  simp [Message.same, and_assoc]

theorem same_self_iff {m : Message} : m.same m = true ↔ ∀ a ∈ m.arguments, ¬a.IsNan := by
  rw [same_iff, List.forall₂_same]
  simp [Argument.same_self_iff]

private theorem arguments_spec {as bs : List Argument} (related : List.Forall₂ (fun x y => x.same y = true) as bs) :
    as.filterMap Argument.timeTag? = bs.filterMap Argument.timeTag? ∧ ∀ b ∈ bs, ¬b.IsNan := by
  induction related with
  | nil => exact ⟨rfl, by simp⟩
  | cons head _ ih =>
    obtain ⟨tag, number⟩ := Argument.same_spec head
    rw [List.filterMap_cons, List.filterMap_cons, tag, ih.1]
    exact ⟨rfl, List.forall_mem_cons.mpr ⟨number, ih.2⟩⟩

theorem same_spec {a b : Message} (same : a.same b = true) :
    a.address = b.address ∧ a.timeTags = b.timeTags ∧ ∀ x ∈ b.arguments, ¬x.IsNan := by
  obtain ⟨address, related⟩ := same_iff.mp same
  exact ⟨address, arguments_spec related⟩

end Message

namespace Packet

mutual

/-- How deep bundles are nested in a packet; a bundle without bundles counts as one. -/
def depth : Packet → Nat
  | message _ => 0
  | bundle _ elements => depthAll elements + 1

def depthAll : List Packet → Nat
  | [] => 0
  | p :: ps => max p.depth (depthAll ps)

end

mutual

/-- The messages in a packet, at any depth. -/
def messages : Packet → List Message
  | message m => [m]
  | bundle _ elements => messagesAll elements

def messagesAll : List Packet → List Message
  | [] => []
  | p :: ps => p.messages ++ messagesAll ps

end

mutual

/-- The time tags in a packet, at any depth: those of its bundles and those among the arguments. -/
def timeTags : Packet → List TimeTag
  | message m => m.timeTags
  | bundle t elements => t :: timeTagsAll elements

def timeTagsAll : List Packet → List TimeTag
  | [] => []
  | p :: ps => p.timeTags ++ timeTagsAll ps

end

theorem depthAll_le_iff {ps : List Packet} {levels : Nat} : depthAll ps ≤ levels ↔ ∀ p ∈ ps, p.depth ≤ levels := by
  induction ps with
  | nil => simp [depthAll]
  | cons p ps ih => rw [depthAll, Nat.max_le, ih, List.forall_mem_cons]

theorem mem_messagesAll {ps : List Packet} {m : Message} : m ∈ messagesAll ps ↔ ∃ p ∈ ps, m ∈ p.messages := by
  induction ps with
  | nil => simp [messagesAll]
  | cons p ps ih => simp [messagesAll, ih]

theorem mem_timeTagsAll {ps : List Packet} {t : TimeTag} : t ∈ timeTagsAll ps ↔ ∃ p ∈ ps, t ∈ p.timeTags := by
  induction ps with
  | nil => simp [timeTagsAll]
  | cons p ps ih => simp [timeTagsAll, ih]

/-- Every message has an address that begins with a slash. -/
def IsAddressed (p : Packet) : Prop := ∀ m ∈ p.messages, m.address.toList.head? = some '/'

instance (p : Packet) : Decidable p.IsAddressed :=
  inferInstanceAs (Decidable (∀ m ∈ p.messages, m.address.toList.head? = some '/'))

/-- Every time tag is one that its own 64-bit value gives back. -/
def IsCanonical (p : Packet) : Prop := ∀ t ∈ p.timeTags, t.IsCanonical

instance (p : Packet) : Decidable p.IsCanonical := inferInstanceAs (Decidable (∀ t ∈ p.timeTags, t.IsCanonical))

/-- No floating point argument is anything but a number. -/
def IsNumeric (p : Packet) : Prop := ∀ m ∈ p.messages, ∀ a ∈ m.arguments, ¬a.IsNan

instance (p : Packet) : Decidable p.IsNumeric :=
  inferInstanceAs (Decidable (∀ m ∈ p.messages, ∀ a ∈ m.arguments, ¬a.IsNan))

mutual

/-- Packets that are equal as values agree in depth and in time tags, and each message of one equals one of the
    other. -/
theorem same_spec : ∀ p q : Packet, p.same q = true → p.depth = q.depth ∧ p.timeTags = q.timeTags ∧
    ∀ b ∈ q.messages, ∃ a ∈ p.messages, a.same b = true
  | message a, message b, same => by
    refine ⟨rfl, (Message.same_spec same).2.1, ?_⟩
    intro c member
    rw [messages, List.mem_singleton] at member
    exact ⟨a, List.mem_singleton.mpr rfl, member ▸ same⟩
  | bundle t ps, bundle u qs, same => by
    obtain ⟨tags, elements⟩ := Bool.and_eq_true_iff.mp same
    obtain ⟨depths, times, related⟩ := sameAll_spec ps qs elements
    obtain rfl := eq_of_beq tags
    exact ⟨congrArg (· + 1) depths, congrArg (t :: ·) times, related⟩
  | message a, bundle u qs, same => by cases same
  | bundle t ps, message b, same => by cases same

private theorem sameAll_spec : ∀ ps qs : List Packet, sameAll ps qs = true → depthAll ps = depthAll qs ∧
    timeTagsAll ps = timeTagsAll qs ∧ ∀ b ∈ messagesAll qs, ∃ a ∈ messagesAll ps, a.same b = true
  | [], [], _ => ⟨rfl, rfl, by simp [messagesAll]⟩
  | p :: ps, q :: qs, same => by
    obtain ⟨first, others⟩ := Bool.and_eq_true_iff.mp same
    obtain ⟨depth, times, related⟩ := same_spec p q first
    obtain ⟨depths, timesAll, relatedAll⟩ := sameAll_spec ps qs others
    refine ⟨by rw [depthAll, depthAll, depth, depths], by rw [timeTagsAll, timeTagsAll, times, timesAll], ?_⟩
    intro b member
    rcases List.mem_append.mp member with early | late
    · obtain ⟨a, found, equal⟩ := related b early
      exact ⟨a, List.mem_append_left _ found, equal⟩
    · obtain ⟨a, found, equal⟩ := relatedAll b late
      exact ⟨a, List.mem_append_right _ found, equal⟩
  | [], q :: qs, same => by cases same
  | p :: ps, [], same => by cases same

end

mutual

/-- A packet equals itself as a value exactly if its floating point arguments are numbers. -/
theorem same_self_iff : ∀ p : Packet, p.same p = true ↔ p.IsNumeric
  | message m => by
    rw [Packet.same, Message.same_self_iff]
    simp [IsNumeric, messages]
  | bundle t ps => by
    rw [Packet.same, Bool.and_eq_true_iff, sameAll_self_iff ps]
    simp [IsNumeric, messages]

theorem sameAll_self_iff : ∀ ps : List Packet,
    sameAll ps ps = true ↔ ∀ m ∈ messagesAll ps, ∀ a ∈ m.arguments, ¬a.IsNan
  | [] => by simp [sameAll, messagesAll]
  | p :: ps => by
    rw [sameAll, Bool.and_eq_true_iff, same_self_iff p, sameAll_self_iff ps, messagesAll, List.forall_mem_append]
    rfl

end

end Packet

end OpenSound
