import OpenSound.Proofs.Wire.Canonical
import OpenSound.Proofs.Wire.FirstFailure

/-!
# The limit of nesting

How deep a packet is nested alone decides whether its bytes are decoded. Where it is too deep, the error comes out of
all the bundles around the deep place as it is, whatever else these bundles hold. And a bundle that is one too deep is
refused by its first byte, so nothing behind that byte has a say.
-/

namespace OpenSound

open Wire

/-- Elements that are read, or else too deep for the levels that are left, are read if none of them is too deep. -/
theorem Bundle.readElements_nested {child : List UInt8 → Except Error Packet} {levels : Nat}
    {children : List (List UInt8)} {ps : List Packet}
    (each : List.Forall₂ (fun piece p => piece.length < UInt32.size ∧
      child piece = if p.depth ≤ levels then .ok p else .error (.nestingTooDeep maxDepth)) children ps)
    (index : Nat) : readElements child index (sized children) =
      if Packet.depthAll ps ≤ levels then .ok ps else .error (.nestingTooDeep maxDepth) := by
  induction each generalizing index with
  | nil => rw [sized_nil, readElements_nil, Packet.depthAll, if_pos (Nat.zero_le levels)]
  | @cons piece p children ps first _ ih =>
    obtain ⟨small, read⟩ := first
    rw [sized_cons, readElements_framed small, read, ih, Packet.depthAll]
    by_cases deep : p.depth ≤ levels
    · by_cases deeper : Packet.depthAll ps ≤ levels
      · rw [if_pos deep, if_pos deeper, if_pos (Nat.max_le.mpr ⟨deep, deeper⟩)]
        rfl
      · rw [if_pos deep, if_neg deeper, if_neg fun both => deeper (Nat.max_le.mp both).2]
        rfl
    · rw [if_neg deep, if_neg fun both => deep (Nat.max_le.mp both).1]
      rfl

/-- Bytes that derive a packet are decoded to it if it is not nested too deep. Otherwise that is their error. -/
theorem Wire.Derives.decodeWithin_eq {bytes : List UInt8} {p : Packet} (derives : Derives bytes p) (levels : Nat) :
    Packet.decodeWithin levels bytes = if p.depth ≤ levels then .ok p else .error (.nestingTooDeep maxDepth) := by
  induction derives using Derives.induction generalizing levels with
  | @message m _ _ _ _ slash addressForm tagsForm payloads aligned =>
    have shallow : (Packet.message m).depth ≤ levels := Nat.zero_le levels
    rw [if_pos shallow]
    exact Packet.decodeWithin_iff.mpr ⟨.message slash addressForm tagsForm payloads aligned, shallow⟩
  | @bundle t ps time children timeForm _ aligned each =>
    have opens : Bundle.IsOpening (bundleHeader ++ time) := by
      obtain ⟨raw, -, rfl⟩ := timeForm
      exact ⟨_, bigEndian_length 8 _, rfl⟩
    rw [Packet.decodeWithin_opening opens aligned]
    cases levels with
    | zero => rfl
    | succ levels =>
      have elements := Bundle.readElements_nested
        (each.imp fun piece p h => ⟨h.1, h.2.elim fun _ read => read levels⟩) 0
      rw [Bundle.decodeWithin_opening timeForm, elements, Packet.depth]
      by_cases shallow : Packet.depthAll ps ≤ levels
      · rw [if_pos shallow, if_pos (Nat.succ_le_succ shallow)]
        rfl
      · rw [if_neg shallow, if_neg fun both => shallow (Nat.le_of_succ_le_succ both)]
        rfl

/-- Bytes that are the same but for one element, with a number of bundles around it, that begins with a hash in both and
    is as long in both. In front of it may be any other elements, and behind it any bytes. -/
inductive Wire.SameAround : Nat → List UInt8 → List UInt8 → Prop
  | here {piece piece' : List UInt8} : piece.head? = some 35 → piece'.head? = some 35 →
    piece.length = piece'.length → SameAround 0 piece piece'
  | inside {levels : Nat} {opening piece piece' tail : List UInt8} {front : List (List UInt8)} :
    Bundle.IsOpening opening → (∀ c ∈ front, c.length < UInt32.size) → piece.length < UInt32.size →
    SameAround levels piece piece' →
    SameAround (levels + 1) (opening ++ (sized (front ++ [piece]) ++ tail))
      (opening ++ (sized (front ++ [piece']) ++ tail))

private theorem Wire.SameAround.length_eq {levels : Nat} {bytes bytes' : List UInt8}
    (same : SameAround levels bytes bytes') :
    bytes.length = bytes'.length := by
  induction same with
  | here _ _ equal => exact equal
  | inside _ _ _ _ ih => simp [ih]

/-- Behind any elements, what is read of some bytes is all that matters of them. -/
theorem Bundle.readElements_congr {child : List UInt8 → Except Error Packet} {rest rest' : List UInt8}
    (same : ∀ index, readElements child index rest = readElements child index rest') {front : List (List UInt8)}
    (small : ∀ c ∈ front, c.length < UInt32.size) (index : Nat) :
    readElements child index (sized front ++ rest) = readElements child index (sized front ++ rest') := by
  induction front generalizing index with
  | nil => exact same index
  | cons piece front ih =>
    obtain ⟨first, others⟩ := List.forall_mem_cons.mp small
    rw [sized_cons, List.append_assoc (bigEndian 4 piece.length ++ piece), readElements_framed first,
      List.append_assoc (bigEndian 4 piece.length ++ piece), readElements_framed first, ih others]

/-- Bytes that are not aligned are told apart by their length only. -/
theorem Packet.decodeWithin_congr {levels : Nat} {bytes bytes' : List UInt8} (length : bytes.length = bytes'.length)
    (same : bytes.length % 4 = 0 → decodeWithin levels bytes = decodeWithin levels bytes') :
    decodeWithin levels bytes = decodeWithin levels bytes' := by
  by_cases aligned : bytes.length % 4 = 0
  · exact same aligned
  · unfold decodeWithin decodeWith
    rw [if_pos aligned, if_pos (length ▸ aligned), length]

/-- Where no more bundles may be opened, the first byte of one is enough to refuse it. -/
theorem Packet.decodeWithin_zero {bytes : List UInt8} (hash : bytes.head? = some 35) (aligned : bytes.length % 4 = 0) :
    decodeWithin 0 bytes = .error (.nestingTooDeep maxDepth) := by
  obtain ⟨rest, rfl⟩ := List.head?_eq_some_iff.mp hash
  unfold decodeWithin decodeWith
  rw [if_neg (not_not_intro aligned)]
  rfl

/-- An element that is a bundle too deep is not looked into. -/
theorem Wire.SameAround.decodeWithin_eq {levels : Nat} {bytes bytes' : List UInt8}
    (same : SameAround levels bytes bytes') : Packet.decodeWithin levels bytes = Packet.decodeWithin levels bytes' := by
  induction same with
  | here hash hash' length =>
    refine Packet.decodeWithin_congr length fun aligned => ?_
    rw [Packet.decodeWithin_zero hash aligned, Packet.decodeWithin_zero hash' (length ▸ aligned)]
  | @inside levels opening piece piece' tail front opens small bound inner ih =>
    have whole : SameAround (levels + 1) (opening ++ (sized (front ++ [piece]) ++ tail)) _ :=
      .inside opens small bound inner
    have length := whole.length_eq
    have elements (index : Nat) : Bundle.readElements (Packet.decodeWithin levels) index (sized [piece] ++ tail) =
        Bundle.readElements (Packet.decodeWithin levels) index (sized [piece'] ++ tail) := by
      rw [sized_cons, sized_cons, sized_nil, List.append_nil, List.append_nil, Bundle.readElements_framed bound,
        Bundle.readElements_framed (inner.length_eq ▸ bound), ih]
    have behind := Bundle.readElements_congr elements small 0
    rw [← List.append_assoc, ← List.append_assoc, ← sized_append, ← sized_append] at behind
    refine Packet.decodeWithin_congr length fun aligned => ?_
    obtain ⟨t, time, form, rfl⟩ := opens.exists_timeTag
    rw [Packet.decodeWithin_opening opens aligned, Packet.decodeWithin_opening opens (length ▸ aligned),
      Bundle.decodeWithin_opening form, Bundle.decodeWithin_opening form, behind]

private theorem Packet.sameAround_wrapped {p q : Packet} (hash : p.wire.head? = some 35)
    (hash' : q.wire.head? = some 35)
    (length : p.wire.length = q.wire.length) {levels : Nat} (small : p.wire.length + 20 * levels < UInt32.size) :
    SameAround levels (p.wrapped levels).wire (q.wrapped levels).wire := by
  induction levels with
  | zero => exact .here hash hash' length
  | succ levels ih =>
    have opens : Bundle.IsOpening (bundleHeader ++ bigEndian 8 TimeTag.immediate.toRaw.toNat) :=
      ⟨_, bigEndian_length 8 _, rfl⟩
    have bound : (p.wrapped levels).wire.length < UInt32.size := by
      rw [Packet.wire_length_wrapped]
      omega
    have inside := @SameAround.inside levels _ _ _ [] [] opens (by simp) bound (ih (by omega))
    simpa [Packet.wrapped, Packet.wire, Packet.wireAll] using inside

/-- The encoding of a packet with addresses behind slashes is decoded, to that packet with canonical time tags, if its
    bundles are nested at most thirty-two deep. If they are nested deeper anywhere, the error is that of the nesting and
    nothing else, whatever stands around that place. No bytes at all are decoded to a packet that is nested deeper. And
    of an element that begins with a hash and has thirty-two bundles around it, nothing but its length has a say in what
    bytes are decoded to. -/
theorem Packet.nesting_decides :
    (∀ (p : Packet) (bytes : List UInt8), p.encode = .ok bytes → p.IsAddressed →
      (32 < p.depth → decode bytes = .error (.nestingTooDeep 32)) ∧
      (p.depth ≤ 32 → decode bytes = .ok p.canonical)) ∧
    (∀ (bytes : List UInt8) (p : Packet), decode bytes = .ok p → p.depth ≤ 32) ∧
    ∀ bytes bytes' : List UInt8, SameAround 32 bytes bytes' → decode bytes = decode bytes' := by
  refine ⟨fun p bytes encoded addressed => ?_, fun bytes p decoded => (decodeWithin_iff.mp decoded).2,
    fun bytes bytes' same => same.decodeWithin_eq⟩
  obtain ⟨writable, rfl⟩ := Packet.encode_iff.mp encoded
  have outcome := (wire_derives_canonical writable addressed).decodeWithin_eq maxDepth
  rw [depth_canonical] at outcome
  exact ⟨fun deep => outcome.trans (if_neg (Nat.not_le_of_lt deep)), fun shallow => outcome.trans (if_pos shallow)⟩

/-- A branch that is too deep between a message and an empty bundle; the same with one bundle less, where a time tag is
    not canonical; and two empty bundles at a depth where nobody looks at their time tags. -/
theorem Packet.nesting_decides_branch :
    let branch (levels : Nat) := bundle ⟨7, 0, true⟩
      [message ⟨"/a", [.int32 1]⟩, (message ⟨"/b", []⟩).wrapped levels, bundle .immediate []]
    let unseen (t : TimeTag) := (bundle t []).wrapped 32
    decode (branch 32).wire = .error (.nestingTooDeep 32) ∧
    (∃ p, decode (branch 31).wire = .ok p ∧ p ≠ branch 31 ∧ p.depth ≤ 32) ∧
    decode (unseen ⟨1, 2, false⟩).wire = decode (unseen ⟨3, 4, false⟩).wire := by
  intro branch unseen
  obtain ⟨written, shallow, unexamined⟩ := Packet.nesting_decides
  have message_writable : (message ⟨"/a", [.int32 1]⟩).IsWritable := (Packet.encode_iff.mp rfl).1
  have inner_writable : (message ⟨"/b", []⟩).IsWritable := (Packet.encode_iff.mp rfl).1
  have encoded (levels : Nat) (few : levels ≤ 32) : (branch levels).encode = .ok (branch levels).wire := by
    have size := (message ⟨"/b", []⟩).wire_length_wrapped levels
    have inner : (message ⟨"/b", []⟩).wire.length = 8 := rfl
    have small : (message ⟨"/b", []⟩).wire.length + 20 * levels < UInt32.size := by
      rw [inner, UInt32.size]
      omega
    exact Packet.encode_iff.mpr ⟨⟨message_writable, by decide, Packet.isWritable_wrapped inner_writable small,
      size ▸ small, trivial, by decide, trivial⟩, rfl⟩
  have decoded := (written (branch 31) _ (encoded 31 (by decide)) (by decide +kernel)).2 (by decide +kernel)
  have around (t u : TimeTag) : SameAround 32 (unseen t).wire (unseen u).wire :=
    sameAround_wrapped (p := bundle t []) (q := bundle u []) rfl rfl rfl
      (by simp [wire, bundleHeader, wireAll, UInt32.size])
  refine ⟨(written (branch 32) _ (encoded 32 le_rfl) (by decide +kernel)).1 (by decide +kernel),
    ⟨_, decoded, fun same => ?_, shallow _ _ decoded⟩, unexamined _ _ (around _ _)⟩
  have tags := congrArg timeTags same
  exact absurd tags (by decide +kernel)

end OpenSound
