import OpenSound.Proofs.Wire.Values
import OpenSound.Wire.Packet

/-!
# What writers append

Every value has bytes of its own, put together from the bytes of its parts, and a condition under which it can be
written. A writer succeeds exactly under that condition, whatever the buffer holds, and then appends just these
bytes.
-/

namespace OpenSound

open Wire

namespace Wire

/-- A writer that succeeds under a condition, and then appends these bytes to what the buffer holds. -/
def Writer.Appends (w : Writer) (condition : Prop) (bytes : List UInt8) : Prop :=
  ∀ buffer written, w buffer = (.ok (), written) ↔ condition ∧ written = buffer ++ bytes

private theorem Writer.put_appends (bytes : List UInt8) : (Writer.put bytes).Appends True bytes := by
  intro buffer written
  simp [Writer.put, eq_comm]

private theorem Writer.fail_appends (e : Error) (bytes : List UInt8) : (Writer.fail e).Appends False bytes := by
  intro buffer written
  simp [Writer.fail]

theorem Writer.Appends.andThen {first second : Writer} {c d : Prop} {front back : List UInt8}
    (left : first.Appends c front) (right : second.Appends d back) :
    (first.andThen second).Appends (c ∧ d) (front ++ back) := by
  intro buffer written
  unfold Writer.andThen
  split
  · rename_i middle done
    obtain ⟨holds, rfl⟩ := (left _ _).mp done
    rw [right, List.append_assoc]
    simp [holds]
  · rename_i e middle failed
    have never : ¬c := fun holds => by
      rw [(left buffer (buffer ++ front)).mpr ⟨holds, rfl⟩] at failed
      cases failed
    simp [never]

private theorem Writer.all_appends {α : Type} {write : α → Writer} {condition : α → Prop} {bytes : α → List UInt8}
    (each : ∀ a, (write a).Appends (condition a) (bytes a)) (as : List α) :
    (Writer.all (as.map write)).Appends (∀ a ∈ as, condition a) (as.flatMap bytes) := by
  induction as with
  | nil =>
    intro buffer written
    rw [List.map_nil, Writer.all, Writer.put_appends []]
    simp
  | cons a as ih =>
    intro buffer written
    rw [List.map_cons, Writer.all, (each a).andThen ih, List.forall_mem_cons, List.flatMap_cons]

end Wire

/-- A string that can be written: its length fits 32 bits with the final zero, and it holds no zero. -/
def Wire.IsWritableString (s : String) : Prop := (Utf8.encode s).length + 1 < UInt32.size ∧ 0 ∉ Utf8.encode s

theorem Wire.writeString_appends (s : String) : (writeString s).Appends (IsWritableString s) (stringBytes s) := by
  intro buffer written
  unfold writeString IsWritableString
  by_cases long : UInt32.size ≤ (Utf8.encode s).length + 1
  · rw [if_pos long, Writer.fail_appends _ (stringBytes s)]
    simp [Nat.not_lt_of_le long]
  · rw [if_neg long]
    by_cases zero : 0 ∈ Utf8.encode s
    · rw [if_pos (by simpa using zero), Writer.fail_appends _ (stringBytes s)]
      simp [zero]
    · rw [if_neg (by simpa using zero), Writer.put_appends]
      simp [zero, Nat.lt_of_not_le long, stringBytes]

/-- The bytes that an argument is written as. -/
def Argument.wire : Argument → List UInt8
  | .nil => []
  | .bool _ => []
  | .int32 i => bigEndian 4 i.toUInt32.toNat
  | .float32 bits => bigEndian 4 bits.toNat
  | .string s => stringBytes s
  | .blob data => bigEndian 4 data.length ++ data ++ padding data.length
  | .int64 i => bigEndian 8 i.toUInt64.toNat
  | .float64 bits => bigEndian 8 bits.toNat
  | .timeTag t => bigEndian 8 t.toRaw.toNat

/-- An argument that can be written: only a string and a blob may not be. -/
def Argument.IsWritable : Argument → Prop
  | .string s => IsWritableString s
  | .blob data => data.length ≤ maxBlob
  | _ => True

theorem Wire.writeArgument_appends (a : Argument) : (writeArgument a).Appends a.IsWritable a.wire := by
  cases a with
  | string s => exact writeString_appends s
  | blob data =>
    intro buffer written
    rw [writeArgument, writeBlob]
    by_cases long : maxBlob < data.length
    · rw [if_pos long, Writer.fail_appends _ (Argument.blob data).wire]
      simp [Argument.IsWritable, long]
    · rw [if_neg long, Writer.put_appends]
      simp [Argument.IsWritable, Argument.wire, Nat.le_of_not_lt long]
  | _ => exact Writer.put_appends _

/-- The bytes that a message is written as. -/
def Message.wire (m : Message) : List UInt8 :=
  stringBytes m.address ++ (stringBytes m.tags ++ m.arguments.flatMap Argument.wire)

/-- A message that can be written. -/
def Message.IsWritable (m : Message) : Prop :=
  IsWritableString m.address ∧ IsWritableString m.tags ∧ ∀ a ∈ m.arguments, a.IsWritable

theorem Message.write_appends (m : Message) : m.write.Appends m.IsWritable m.wire :=
  (writeString_appends m.address).andThen
    ((writeString_appends m.tags).andThen (Writer.all_appends writeArgument_appends m.arguments))

mutual

/-- The bytes that a packet is written as. -/
def Packet.wire : Packet → List UInt8
  | .message m => m.wire
  | .bundle t elements => bundleHeader ++ bigEndian 8 t.toRaw.toNat ++ Packet.wireAll elements

/-- The bytes that the elements of a bundle are written as, each behind its size. -/
def Packet.wireAll : List Packet → List UInt8
  | [] => []
  | p :: ps => bigEndian 4 p.wire.length ++ p.wire ++ Packet.wireAll ps

end

mutual

/-- A packet that can be written. -/
def Packet.IsWritable : Packet → Prop
  | .message m => m.IsWritable
  | .bundle _ elements => Packet.AllWritable elements

/-- Elements that can be written, each of a size that fits 32 bits. -/
def Packet.AllWritable : List Packet → Prop
  | [] => True
  | p :: ps => p.IsWritable ∧ p.wire.length < UInt32.size ∧ Packet.AllWritable ps

end

/-- A size filled in over the four bytes in front of an element. -/
theorem Wire.fillSize_reserved (buffer child : List UInt8) (size : Nat) :
    fillSize (buffer ++ [0, 0, 0, 0] ++ child) buffer.length size = buffer ++ bigEndian 4 size ++ child := by
  have front : (buffer ++ [0, 0, 0, 0] ++ child).take buffer.length = buffer := by simp
  have back : (buffer ++ [0, 0, 0, 0] ++ child).drop (buffer.length + 4) = child :=
    List.drop_left' (by simp)
  rw [fillSize, front, back]

mutual

theorem Packet.write_appends : ∀ p : Packet, Writer.Appends p.write p.IsWritable p.wire
  | .message m => fun buffer written => by
    rw [Packet.write, m.write_appends]
    rfl
  | .bundle t elements => fun buffer written => by
    rw [Packet.write, Packet.writeElements_appends elements, Packet.IsWritable, Packet.wire]
    simp only [List.append_assoc]

private theorem Packet.writeElements_appends :
    ∀ ps : List Packet, Writer.Appends (Packet.writeElements ps) (Packet.AllWritable ps) (Packet.wireAll ps)
  | [] => fun buffer written => by simp [Packet.writeElements, Packet.AllWritable, Packet.wireAll, eq_comm]
  | p :: ps => fun buffer written => by
    have first := p.write_appends (buffer ++ [0, 0, 0, 0])
    rw [Packet.writeElements, Packet.AllWritable, Packet.wireAll]
    split
    · rename_i e middle failed
      have never : ¬p.IsWritable := fun writable => by
        rw [(first _).mpr ⟨writable, rfl⟩] at failed
        cases failed
      simp [never]
    · rename_i middle done
      obtain ⟨writable, rfl⟩ := (first _).mp done
      have size : (buffer ++ [0, 0, 0, 0] ++ p.wire).length - buffer.length - 4 = p.wire.length := by
        simp
      simp only [size]
      by_cases large : UInt32.size ≤ p.wire.length
      · rw [if_pos large]
        simp [Nat.not_lt_of_le large]
      · rw [if_neg large, fillSize_reserved, Packet.writeElements_appends ps]
        simp [writable, Nat.lt_of_not_le large]

end

theorem Argument.wire_aligned (a : Argument) : a.wire.length % 4 = 0 := by
  cases a with
  | string s => rw [Argument.wire, stringBytes_length]; exact (paddedLength_bounds _).2.2
  | blob data =>
    obtain ⟨longer, _, aligned⟩ := paddedLength_bounds data.length
    simp [Argument.wire, padding]
    omega
  | _ => simp [Argument.wire]

theorem Argument.wire_flatMap_aligned (as : List Argument) : (as.flatMap Argument.wire).length % 4 = 0 := by
  induction as with
  | nil => rfl
  | cons a as ih =>
    have first := a.wire_aligned
    rw [List.flatMap_cons, List.length_append]
    omega

theorem Message.wire_aligned (m : Message) : m.wire.length % 4 = 0 := by
  have address := (paddedLength_bounds ((Utf8.encode m.address).length + 1)).2.2
  have tags := (paddedLength_bounds ((Utf8.encode m.tags).length + 1)).2.2
  have arguments := Argument.wire_flatMap_aligned m.arguments
  rw [Message.wire, List.length_append, List.length_append, stringBytes_length, stringBytes_length]
  omega

mutual

theorem Packet.wire_aligned : ∀ p : Packet, p.wire.length % 4 = 0
  | .message m => m.wire_aligned
  | .bundle t elements => by
    have all := Packet.wireAll_aligned elements
    simp [Packet.wire, bundleHeader]
    omega

private theorem Packet.wireAll_aligned : ∀ ps : List Packet, (Packet.wireAll ps).length % 4 = 0
  | [] => rfl
  | p :: ps => by
    have first := p.wire_aligned
    have others := Packet.wireAll_aligned ps
    rw [Packet.wireAll, List.length_append, List.length_append, bigEndian_length]
    omega

end

/-- Encoding succeeds exactly on the packets that can be written, and gives their bytes. -/
theorem Packet.encode_iff {p : Packet} {bytes : List UInt8} :
    p.encode = .ok bytes ↔ p.IsWritable ∧ bytes = p.wire := by
  have spec := p.write_appends [] bytes
  rw [List.nil_append] at spec
  rw [← spec, Packet.encode, Writer.bytes]
  split
  · rename_i written done
    rw [done]
    simp
  · rename_i e written failed
    rw [failed]
    simp

theorem Packet.wire_length_wrapped (p : Packet) (levels : Nat) :
    (p.wrapped levels).wire.length = p.wire.length + 20 * levels := by
  induction levels with
  | zero => rfl
  | succ levels ih =>
    rw [Packet.wrapped, Packet.wire, Packet.wireAll, Packet.wireAll]
    simp only [List.length_append, bigEndian_length, ih, bundleHeader, List.length_cons, List.length_nil]
    omega

/-- A packet can be written inside any number of bundles, as long as the sizes fit. -/
theorem Packet.isWritable_wrapped {p : Packet} (writable : p.IsWritable) {levels : Nat}
    (small : p.wire.length + 20 * levels < UInt32.size) : (p.wrapped levels).IsWritable := by
  induction levels with
  | zero => exact writable
  | succ levels ih =>
    refine ⟨ih (by omega), ?_, trivial⟩
    rw [Packet.wire_length_wrapped]
    omega

end OpenSound
