import OpenSound.Proofs.Wire.Canonical

/-!
# Values written one after another

Strings, blobs, arguments and time tags can be written behind anything, and read in the same order. The filling of a
value is counted from the value itself, so what the buffer holds does not matter, nor whether its length is a multiple
of four. A value that cannot be written leaves nothing behind.
-/

namespace OpenSound

open Wire

namespace Wire

@[simp] theorem pad_length (buffer : List UInt8) : (pad buffer).length = paddedLength buffer.length := by
  have longer := (paddedLength_bounds buffer.length).1
  rw [pad, padding, List.length_append, List.length_replicate]
  omega

private theorem padding_of_aligned {n : Nat} (aligned : n % 4 = 0) : padding n = [] := by
  have same : paddedLength n = n + 0 := paddedLength_eq (by decide) aligned
  rw [padding, same, Nat.add_zero, Nat.sub_self, List.replicate_zero]

private theorem pad_pad (buffer : List UInt8) : pad (pad buffer) = pad buffer := by
  have aligned := (paddedLength_bounds buffer.length).2.2
  conv_lhs => rw [pad, pad_length, padding_of_aligned aligned, List.append_nil]

/-- Padding adds as few zeros as make the length a multiple of four. -/
theorem pad_fewest (buffer : List UInt8) :
    ∃ zeros < 4, pad buffer = buffer ++ List.replicate zeros 0 ∧ (buffer.length + zeros) % 4 = 0 ∧
      ∀ more, (buffer.length + more) % 4 = 0 → zeros ≤ more := by
  have bounds := paddedLength_bounds buffer.length
  refine ⟨paddedLength buffer.length - buffer.length, by omega, rfl, by omega, fun more aligned => ?_⟩
  unfold paddedLength
  omega

/-- Clearing the two lowest bits rounds down to a multiple of four. -/
theorem toNat_and_not_three (n : UInt64) : (n &&& ~~~3).toNat = n.toNat / 4 * 4 := by
  have mask : (~~~3 : UInt64).toNat = (2 ^ 62 - 1) * 2 ^ 2 := by decide
  have quarter : n.toNat / 4 * 4 = n.toNat / 2 ^ 2 * 2 ^ 2 := rfl
  rw [UInt64.toNat_and, mask, quarter]
  refine Nat.eq_of_testBit_eq fun i => ?_
  rw [Nat.testBit_and, Nat.testBit_mul_two_pow, Nat.testBit_mul_two_pow, Nat.testBit_div_two_pow,
    Nat.testBit_two_pow_sub_one]
  by_cases low : i < 2
  · simp [Nat.not_le_of_lt low]
  by_cases high : i < 64
  · have inside : i - 2 < 62 := by omega
    simp [Nat.le_of_not_lt low, inside]
  · have none : n.toNat.testBit i = false :=
      Nat.testBit_lt_two_pow (lt_of_lt_of_le n.toNat_lt (Nat.pow_le_pow_right (by decide) (Nat.le_of_not_lt high)))
    simp [Nat.le_of_not_lt low, none]

/-- The next multiple of four of a 64-bit length: three is added, and the two lowest bits are cleared. -/
theorem paddedLength64?_eq_mask (n : UInt64) :
    paddedLength64? n = if n.toNat + 3 < UInt64.size then some ((n + 3) &&& ~~~3) else none := by
  unfold paddedLength64?
  split_ifs with small
  · have sum : (n + 3).toNat = n.toNat + 3 := by
      rw [UInt64.toNat_add]
      exact Nat.mod_eq_of_lt small
    congr 1
    rw [← UInt64.toNat_inj, toNat_and_not_three, sum, paddedLength, UInt64.toNat_ofNat_of_lt']
    omega
  · rfl

end Wire

/-- A value that can be written by itself. -/
inductive Item where
  | string (s : String)
  | blob (data : List UInt8)
  | argument (a : Argument)
  | timeTag (t : TimeTag)
  deriving DecidableEq

/-- What has to be known of an item to read it. -/
inductive Item.Kind where
  | string
  | blob
  | argument (tag : Char)
  | timeTag

namespace Item

def kind : Item → Kind
  | string _ => .string
  | blob _ => .blob
  | argument a => .argument a.tag
  | timeTag _ => .timeTag

def write : Item → Writer
  | string s => writeString s
  | blob data => writeBlob data
  | argument a => writeArgument a
  | timeTag t => writeTimeTag t

/-- Writes items one after another, goes on where one of them fails, and gives those that were written. -/
def writeEach : List Item → List UInt8 → List Item × List UInt8
  | [], buffer => ([], buffer)
  | item :: items, buffer =>
    match item.write buffer with
    | (.ok (), buffer) => (writeEach items buffer).map (item :: ·) id
    | (.error _, buffer) => writeEach items buffer

/-- The outcome of reading something as an item. -/
def ofRead {ε α : Type} (build : α → Item) (fault : ε → ArgumentFault) (r : Except ε α × List UInt8) :
    Except ArgumentFault Item × List UInt8 :=
  ((r.1.map build).mapError fault, r.2)

def Kind.read : Kind → Reader ArgumentFault Item
  | .string, bytes => ofRead Item.string .data (readString bytes)
  | .blob, bytes => ofRead Item.blob .data (readBlob bytes)
  | .argument tag, bytes => ofRead Item.argument id (readArgument tag bytes)
  | .timeTag, bytes => ofRead Item.timeTag .data (readTimeTag bytes)

/-- Reads items of these kinds one after another, up to the first that fails. -/
def readEach : List Kind → Reader ArgumentFault (List Item)
  | [], bytes => (.ok [], bytes)
  | kind :: kinds, bytes =>
    match kind.read bytes with
    | (.error fault, rest) => (.error fault, rest)
    | (.ok item, rest) =>
      match readEach kinds rest with
      | (.error fault, rest) => (.error fault, rest)
      | (.ok items, rest) => (.ok (item :: items), rest)

/-- An item with its time tag made canonical, if it has one. -/
def canonical : Item → Item
  | argument a => argument a.canonical
  | timeTag t => timeTag t.canonical
  | item => item

/-- The argument that is written as the same bytes. -/
def toArgument : Item → Argument
  | string s => .string s
  | blob data => .blob data
  | argument a => a
  | timeTag t => .timeTag t

private theorem write_eq (item : Item) : item.write = writeArgument item.toArgument := by
  cases item <;> rfl

/-- Whether an item can be written. -/
def isWritten (item : Item) : Bool := (item.write []).1.isOk

private theorem read_ofRead {ε α : Type} {build : α → Item} {fault : ε → ArgumentFault} {r : Except ε α × List UInt8}
    {a : α}
    {rest : List UInt8} (read : r = (.ok a, rest)) : ofRead build fault r = (.ok (build a), rest) := by
  rw [read]
  rfl

/-- What is written of an item is read as the item with its time tag made canonical. -/
theorem read_wire {item : Item} (writable : item.toArgument.IsWritable) (rest : List UInt8) :
    item.kind.read (item.toArgument.wire ++ rest) = (.ok item.canonical, rest) := by
  have payload := Argument.wire_payload_canonical writable
  cases item with
  | string s => exact read_ofRead (readString_iff.mpr ⟨_, payload, rfl⟩)
  | blob data => exact read_ofRead (readBlob_iff.mpr ⟨_, payload, rfl⟩)
  | argument a => exact read_ofRead (readArgument_iff.mpr ⟨a.tag_canonical, _, payload, rfl⟩)
  | timeTag t => exact read_ofRead (readTimeTag_iff.mpr ⟨_, payload, rfl⟩)

end Item

/-- An argument that cannot be written leaves the buffer as it is. -/
theorem Wire.writeArgument_error {a : Argument} {buffer left : List UInt8} {e : Error}
    (failed : writeArgument a buffer = (.error e, left)) : left = buffer := by
  cases a with
  | string s =>
    rw [writeArgument, writeString] at failed
    split_ifs at failed
    · exact (Prod.mk.inj failed).2.symm
    · exact (Prod.mk.inj failed).2.symm
    · cases failed
  | blob data =>
    rw [writeArgument, writeBlob] at failed
    split_ifs at failed
    · exact (Prod.mk.inj failed).2.symm
    · cases failed
  | _ => cases failed

/-- An argument is either written behind what the buffer holds, or fails and leaves the buffer as it is. -/
theorem Wire.writeArgument_outcome (a : Argument) (buffer : List UInt8) :
    (a.IsWritable ∧ writeArgument a buffer = (.ok (), buffer ++ a.wire)) ∨
      (¬a.IsWritable ∧ ∃ e, writeArgument a buffer = (.error e, buffer)) := by
  by_cases writable : a.IsWritable
  · exact .inl ⟨writable, (writeArgument_appends a _ _).mpr ⟨writable, rfl⟩⟩
  · rcases outcome : writeArgument a buffer with ⟨e | _, left⟩
    · rw [writeArgument_error outcome]
      exact .inr ⟨writable, e, rfl⟩
    · exact absurd ((writeArgument_appends a _ _).mp outcome).1 writable

namespace Item

theorem isWritten_iff {item : Item} : item.isWritten = true ↔ item.toArgument.IsWritable := by
  rw [isWritten, write_eq]
  obtain ⟨writable, done⟩ | ⟨never, e, failed⟩ := writeArgument_outcome item.toArgument []
  · rw [done]
    exact iff_of_true rfl writable
  · rw [failed]
    exact iff_of_false Bool.false_ne_true never

/-- An item is either written behind what the buffer holds, or fails and leaves the buffer as it is. -/
theorem write_outcome (item : Item) (buffer : List UInt8) :
    (item.isWritten = true ∧ item.write buffer = (.ok (), buffer ++ item.toArgument.wire)) ∨
      (¬item.isWritten = true ∧ ∃ e, item.write buffer = (.error e, buffer)) := by
  rw [isWritten_iff, write_eq]
  exact writeArgument_outcome item.toArgument buffer

/-- What is written does not depend on what it is written behind. -/
theorem writeEach_eq (items : List Item) (buffer : List UInt8) : writeEach items buffer =
    (items.filter isWritten, buffer ++ (items.filter isWritten).flatMap fun item => item.toArgument.wire) := by
  induction items generalizing buffer with
  | nil => simp [writeEach]
  | cons item items ih =>
    obtain ⟨written, done⟩ | ⟨never, e, failed⟩ := item.write_outcome buffer
    · rw [writeEach, done, List.filter_cons_of_pos written, List.flatMap_cons, ← List.append_assoc]
      simp only [ih, Prod.map_apply, id]
    · rw [writeEach, failed, List.filter_cons_of_neg never]
      exact ih buffer

/-- Items that were written one after another are read in the same order, whatever stands behind them. -/
theorem readEach_wire {items : List Item} (written : ∀ item ∈ items, item.isWritten = true) (rest : List UInt8) :
    readEach (items.map kind) ((items.flatMap fun item => item.toArgument.wire) ++ rest) =
      (.ok (items.map canonical), rest) := by
  induction items with
  | nil => rfl
  | cons item items ih =>
    obtain ⟨first, others⟩ := List.forall_mem_cons.mp written
    rw [List.map_cons, List.flatMap_cons, List.append_assoc, readEach, read_wire (isWritten_iff.mp first)]
    simp only [ih others, List.map_cons]

/-- An item without a time tag, or with a canonical one. -/
def IsCanonical (item : Item) : Prop := ∀ t, item.toArgument.timeTag? = some t → t.IsCanonical

theorem canonical_eq_self_iff {item : Item} : item.canonical = item ↔ item.IsCanonical := by
  cases item with
  | argument a => rw [canonical, argument.injEq, a.canonical_eq_self_iff, IsCanonical, toArgument]
  | _ => simp [canonical, IsCanonical, toArgument, Argument.timeTag?, TimeTag.canonical_eq_self_iff]

theorem map_canonical_eq_self_iff {items : List Item} :
    items.map canonical = items ↔ ∀ item ∈ items, item.IsCanonical := by
  conv_lhs => rhs; rw [← List.map_id items]
  simp only [List.map_inj_left, id, canonical_eq_self_iff]

/-- Whatever a buffer holds, items are written behind it one after another and read back in the same order; those that
    cannot be written leave no trace. Padding a buffer adds as few zeros as make its length a multiple of four. -/
theorem writeEach_readEach (items : List Item) (buffer : List UInt8) :
    (∀ item : Item, (item.isWritten = true ↔ item.toArgument.IsWritable) ∧
      ((item.isWritten = true ∧ ∃ written, item.write buffer = (.ok (), buffer ++ written) ∧ written.length % 4 = 0) ∨
        (¬item.isWritten = true ∧ ∃ e, item.write buffer = (.error e, buffer)))) ∧
    (∃ region, writeEach items buffer = (items.filter isWritten, buffer ++ region) ∧ region.length % 4 = 0 ∧
      ∀ rest, readEach ((items.filter isWritten).map kind) (region ++ rest) =
        (.ok ((items.filter isWritten).map canonical), rest)) ∧
    ((items.filter isWritten).map canonical = items.filter isWritten ↔
      ∀ item ∈ items.filter isWritten, item.IsCanonical) ∧
    (∃ zeros < 4, pad buffer = buffer ++ List.replicate zeros 0 ∧ (buffer.length + zeros) % 4 = 0 ∧
      ∀ more, (buffer.length + more) % 4 = 0 → zeros ≤ more) ∧
    pad (pad buffer) = pad buffer ∧ pad [] = [] := by
  refine ⟨fun item => ⟨isWritten_iff, ?_⟩, ⟨_, writeEach_eq items buffer, ?_, ?_⟩, map_canonical_eq_self_iff,
    pad_fewest buffer, pad_pad buffer, rfl⟩
  · obtain ⟨written, done⟩ | failed := item.write_outcome buffer
    · exact .inl ⟨written, _, done, item.toArgument.wire_aligned⟩
    · exact .inr failed
  · rw [← List.flatMap_map]
    exact Argument.wire_flatMap_aligned _
  · exact readEach_wire fun item member => (List.mem_filter.mp member).2

/-- Behind a single byte, with a string among the items that cannot be written. -/
theorem writeEach_readEach_mixed :
    let items := [string "a", string "\x00", blob [7], argument (.float32 0x7fc00001), timeTag .immediate]
    let written := [string "a", blob [7], argument (.float32 0x7fc00001), timeTag .immediate]
    ∃ region, writeEach items [9] = (written, [9] ++ region) ∧ region.length % 4 = 0 ∧
      readEach (written.map kind) (region ++ []) = (.ok written, []) := by
  intro items written
  have kept : items.filter isWritten = written := by decide
  obtain ⟨-, ⟨region, done, aligned, read⟩, -⟩ := writeEach_readEach items [9]
  rw [kept] at done read
  exact ⟨region, done, aligned, read []⟩

end Item

end OpenSound
