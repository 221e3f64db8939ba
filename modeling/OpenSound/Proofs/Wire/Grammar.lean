import OpenSound.Proofs.Packet
import OpenSound.Proofs.Text.Utf8
import OpenSound.Proofs.Wire.Values
import OpenSound.Wire.Packet

/-!
# The grammar of packets

Which bytes are a packet, said without a reader: a message is the form of its address, of its tags and of its
arguments, and whatever follows these; a bundle is its identifier, a time tag, and its elements behind their
sizes. The decoder accepts exactly the bytes of packets whose bundles are not nested too deep.
-/

namespace OpenSound

namespace Wire

mutual

/-- The bytes that are a packet. -/
inductive Derives : List UInt8 → Packet → Prop
  | message {m : Message} {address tags arguments trailing : List UInt8} :
    m.address.toList.head? = some '/' → StringForm m.address address → StringForm m.tags tags →
    Payloads m.arguments arguments → (address ++ tags ++ arguments ++ trailing).length % 4 = 0 →
    Derives (address ++ tags ++ arguments ++ trailing) (.message m)
  | bundle {t : TimeTag} {ps : List Packet} {time elements : List UInt8} :
    TimeTagForm t time → DerivesAll elements ps → (bundleHeader ++ time ++ elements).length % 4 = 0 →
    Derives (bundleHeader ++ time ++ elements) (.bundle t ps)

/-- The bytes that are the elements of a bundle, each behind its size. -/
inductive DerivesAll : List UInt8 → List Packet → Prop
  | nil : DerivesAll [] []
  | cons {p : Packet} {ps : List Packet} {child rest : List UInt8} :
    child.length < UInt32.size → Derives child p → DerivesAll rest ps →
    DerivesAll (bigEndian 4 child.length ++ child ++ rest) (p :: ps)

end

theorem Derives.aligned {bytes : List UInt8} {p : Packet} (derives : Derives bytes p) : bytes.length % 4 = 0 := by
  cases derives with
  | message _ _ _ _ aligned => exact aligned
  | bundle _ _ aligned => exact aligned

private theorem stringBytes_bundleIdentifier : stringBytes bundleIdentifier = bundleHeader := by decide

theorem stringForm_bundleIdentifier {bytes : List UInt8} : StringForm bundleIdentifier bytes ↔ bytes = bundleHeader := by
  rw [stringForm_iff, stringBytes_bundleIdentifier, and_iff_right]
  decide

/-- The first byte of a string tells whether the string begins with a slash. -/
theorem StringForm.head?_iff {s : String} {front : List UInt8} (form : StringForm s front) (rest : List UInt8) :
    (front ++ rest).head? = some 47 ↔ s.toList.head? = some '/' := by
  obtain ⟨_, zeros, _, rfl, _⟩ := form
  rw [← Utf8.head?_encode s (c := '/') (by decide)]
  cases Utf8.encode s with
  | nil => simp
  | cons b bytes => simp

theorem Derives.length_pos {bytes : List UInt8} {p : Packet} (derives : Derives bytes p) : 0 < bytes.length := by
  cases derives with
  | message _ address _ _ _ =>
    obtain ⟨_, _, _, rfl, _⟩ := address
    simp
  | bundle _ _ _ => simp [bundleHeader]

end Wire

open Wire

/-- A message is read exactly from the forms of its address, its tags and its arguments, whatever follows. -/
theorem Message.decode_iff {m : Message} {bytes : List UInt8} :
    Message.decode bytes = .ok m ↔ ∃ address tags arguments trailing, StringForm m.address address ∧
      StringForm m.tags tags ∧ Payloads m.arguments arguments ∧
      bytes = address ++ tags ++ arguments ++ trailing := by
  unfold Message.decode
  constructor
  · intro read
    split at read
    · cases read
    rename_i address behind first
    obtain ⟨front, addressForm, rfl⟩ := readString_iff.mp first
    split at read
    · cases read
    rename_i tags behind second
    obtain ⟨middle, tagsForm, rfl⟩ := readString_iff.mp second
    split at read
    · cases read
    rename_i arguments trailing third
    obtain ⟨rfl, back, payloads, rfl⟩ := readArguments_iff.mp third
    cases read
    exact ⟨front, middle, back, trailing, addressForm, tagsForm, payloads, by simp⟩
  · rintro ⟨front, middle, back, trailing, addressForm, tagsForm, payloads, rfl⟩
    have first : readString (front ++ middle ++ back ++ trailing) = (.ok m.address, middle ++ back ++ trailing) :=
      readString_iff.mpr ⟨front, addressForm, by simp⟩
    have second : readString (middle ++ back ++ trailing) = (.ok m.tags, back ++ trailing) :=
      readString_iff.mpr ⟨middle, tagsForm, by simp⟩
    have third : readArguments m.tags (back ++ trailing) = (.ok m.arguments, trailing) :=
      readArguments_iff.mpr ⟨rfl, back, payloads, rfl⟩
    simp only [first, second, third]

/-- What reading elements does where some bytes are left. -/
theorem Bundle.readElements_eq {bytes : List UInt8} (some : ¬bytes.isEmpty) (child : List UInt8 → Except Error Packet)
    (index : Nat) : readElements child index bytes =
      match readNumber 4 bytes with
      | (.error fault, _) => .error (.elementSize index fault)
      | (.ok size, rest) =>
        if rest.length < size then .error (.elementTruncated index size rest.length)
        else
          match child (rest.take size) with
          | .error e => .error (elementError index e)
          | .ok p => (readElements child (index + 1) (rest.drop size)).map (p :: ·) := by
  rw [readElements, if_neg some]
  split
  · rename_i read
    rw [read]
  · rename_i size rest read
    rw [read]
    dsimp only
    cases child (rest.take size) with
    | error e => rfl
    | ok p => cases readElements child (index + 1) (rest.drop size) <;> rfl

/-- What reading elements does with one that lies whole behind its size. -/
theorem Bundle.readElements_framed {front : List UInt8} (small : front.length < UInt32.size)
    (child : List UInt8 → Except Error Packet) (index : Nat) (rest : List UInt8) :
    readElements child index (bigEndian 4 front.length ++ front ++ rest) =
      ((child front).mapError (elementError index)).bind fun p =>
        (readElements child (index + 1) rest).map (p :: ·) := by
  have number : readNumber 4 (bigEndian 4 front.length ++ front ++ rest) = (.ok front.length, front ++ rest) :=
    readNumber_iff.mpr ⟨small, by simp⟩
  have enough : ¬(front ++ rest).length < front.length := by simp
  rw [readElements_eq (by simp [bigEndian]), number]
  dsimp only
  rw [if_neg enough, List.take_left, List.drop_left]
  cases child front <;> rfl

/-- Elements are read exactly from their sizes and the bytes that derive them, if this holds for each of them. -/
theorem Bundle.readElements_iff {child : List UInt8 → Except Error Packet} {levels : Nat}
    (children : ∀ bytes p, child bytes = .ok p ↔ Derives bytes p ∧ p.depth ≤ levels) {index : Nat}
    {bytes : List UInt8} {ps : List Packet} :
    readElements child index bytes = .ok ps ↔ DerivesAll bytes ps ∧ Packet.depthAll ps ≤ levels := by
  induction ps generalizing index bytes with
  | nil =>
    constructor
    · intro read
      rw [readElements] at read
      split at read
      · rename_i empty
        rw [List.isEmpty_iff.mp empty]
        exact ⟨.nil, Nat.zero_le _⟩
      · split at read
        · cases read
        split_ifs at read
        split at read
        · cases read
        split at read <;> cases read
    · rintro ⟨derives, _⟩
      cases derives
      rw [readElements]
      rfl
  | cons p ps ih =>
    constructor
    · intro read
      rw [readElements] at read
      split at read
      · cases read
      split at read
      · cases read
      rename_i size behind number
      obtain ⟨bound, rfl⟩ := readNumber_iff.mp number
      split_ifs at read with short
      split at read
      · cases read
      rename_i q first
      split at read
      · cases read
      rename_i qs others
      cases read
      obtain ⟨derives, shallow⟩ := (children _ _).mp first
      obtain ⟨derivesAll, shallowAll⟩ := ih.mp others
      have length : (behind.take size).length = size := by rw [List.length_take]; omega
      refine ⟨?_, max_le shallow shallowAll⟩
      have framed := DerivesAll.cons (by rw [length]; exact bound) derives derivesAll
      rwa [length, List.append_assoc, List.take_append_drop] at framed
    · rintro ⟨derives, shallow⟩
      cases derives with
      | @cons _ _ front rest small derives derivesAll =>
        obtain ⟨shallowFirst, shallowOthers⟩ := max_le_iff.mp shallow
        have first : child front = .ok p := (children _ _).mpr ⟨derives, shallowFirst⟩
        have others : readElements child (index + 1) rest = .ok ps := ih.mpr ⟨derivesAll, shallowOthers⟩
        rw [readElements_framed small, first, others]
        rfl

/-- A bundle is read exactly from its identifier, the form of its time tag and the bytes of its elements. -/
theorem Bundle.decodeWithin_succ_iff {levels : Nat}
    (children : ∀ bytes p, Packet.decodeWithin levels bytes = .ok p ↔ Derives bytes p ∧ p.depth ≤ levels)
    {bytes : List UInt8} {b : Bundle} :
    decodeWithin (levels + 1) bytes = .ok b ↔ ∃ time elements, TimeTagForm b.timeTag time ∧
      DerivesAll elements b.elements ∧ Packet.depthAll b.elements + 1 ≤ levels + 1 ∧
      bytes = bundleHeader ++ time ++ elements := by
  unfold decodeWithin
  constructor
  · intro read
    split at read
    · cases read
    rename_i identifier behind first
    split_ifs at read with named
    rw [not_ne_iff.mp named, readString_iff] at first
    obtain ⟨front, form, rfl⟩ := first
    rw [stringForm_bundleIdentifier] at form
    subst form
    split at read
    · cases read
    rename_i t elements second
    obtain ⟨time, timeForm, rfl⟩ := readTimeTag_iff.mp second
    split at read
    · cases read
    rename_i ps third
    cases read
    obtain ⟨derives, shallow⟩ := (readElements_iff children).mp third
    exact ⟨time, elements, timeForm, derives, Nat.succ_le_succ shallow, by simp⟩
  · rintro ⟨time, elements, timeForm, derives, shallow, rfl⟩
    have first : readString (bundleHeader ++ time ++ elements) = (.ok bundleIdentifier, time ++ elements) :=
      readString_iff.mpr ⟨bundleHeader, stringForm_bundleIdentifier.mpr rfl, by simp⟩
    have second : readTimeTag (time ++ elements) = (.ok b.timeTag, elements) :=
      readTimeTag_iff.mpr ⟨time, timeForm, rfl⟩
    have third : readElements (Packet.decodeWithin levels) 0 elements = .ok b.elements :=
      (readElements_iff children).mpr ⟨derives, Nat.le_of_succ_le_succ shallow⟩
    have same : Packet.decodeWith (Bundle.decodeWithin levels) = Packet.decodeWithin levels := rfl
    simp only [first, second, same, third, ne_eq, not_true_eq_false, if_false]

/-- The first byte tells messages from bundles. -/
theorem Packet.decodeWith_iff {bundle : List UInt8 → Except Error Bundle} {bytes : List UInt8} {p : Packet} :
    decodeWith bundle bytes = .ok p ↔ bytes.length % 4 = 0 ∧
      ((bytes.head? = some 47 ∧ ∃ m, Message.decode bytes = .ok m ∧ p = .message m) ∨
        (bytes.head? = some 35 ∧ ∃ b, bundle bytes = .ok b ∧ p = b.toPacket)) := by
  unfold decodeWith
  by_cases aligned : bytes.length % 4 = 0
  · rw [if_neg (not_not.mpr aligned), and_iff_right aligned]
    cases bytes with
    | nil => simp
    | cons first rest =>
      by_cases slash : first = 47
      · subst slash
        cases Message.decode (47 :: rest) <;> simp [Except.map, eq_comm]
      · by_cases hash : first = 35
        · subst hash
          cases bundle (35 :: rest) <;> simp [Except.map, eq_comm]
        · simp [slash, hash]
  · rw [if_pos aligned]
    simp [aligned]

private theorem decodeWith_derives {bundle : List UInt8 → Except Error Bundle} {levels : Nat}
    (bundles : ∀ bytes b, bundle bytes = .ok b ↔ ∃ time elements, TimeTagForm b.timeTag time ∧
      DerivesAll elements b.elements ∧ Packet.depthAll b.elements + 1 ≤ levels ∧
      bytes = bundleHeader ++ time ++ elements)
    {bytes : List UInt8} {p : Packet} :
    Packet.decodeWith bundle bytes = .ok p ↔ Derives bytes p ∧ p.depth ≤ levels := by
  rw [Packet.decodeWith_iff]
  constructor
  · rintro ⟨aligned, ⟨slash, m, read, rfl⟩ | ⟨hash, b, read, rfl⟩⟩
    · obtain ⟨address, tags, arguments, trailing, addressForm, tagsForm, payloads, rfl⟩ := Message.decode_iff.mp read
      rw [List.append_assoc, List.append_assoc, addressForm.head?_iff] at slash
      exact ⟨.message slash addressForm tagsForm payloads aligned, Nat.zero_le _⟩
    · obtain ⟨time, elements, timeForm, derives, shallow, rfl⟩ := (bundles _ _).mp read
      exact ⟨.bundle timeForm derives aligned, shallow⟩
  · rintro ⟨derives, shallow⟩
    refine ⟨derives.aligned, ?_⟩
    cases derives with
    | @message m address tags arguments trailing slash addressForm tagsForm payloads aligned =>
      refine .inl ⟨?_, m, Message.decode_iff.mpr ⟨_, _, _, _, addressForm, tagsForm, payloads, rfl⟩, rfl⟩
      rwa [List.append_assoc, List.append_assoc, addressForm.head?_iff]
    | @bundle t ps time elements timeForm derives aligned =>
      exact .inr ⟨rfl, ⟨t, ps⟩, (bundles _ _).mpr ⟨time, elements, timeForm, derives, shallow, rfl⟩, rfl⟩

/-- Within a number of levels, the decoder accepts exactly the bytes of packets that are nested at most so deep. -/
theorem Packet.decodeWithin_iff {levels : Nat} {bytes : List UInt8} {p : Packet} :
    decodeWithin levels bytes = .ok p ↔ Derives bytes p ∧ p.depth ≤ levels := by
  induction levels generalizing bytes p with
  | zero =>
    refine decodeWith_derives fun bytes b => iff_of_false (by simp [Bundle.decodeWithin]) ?_
    rintro ⟨_, _, _, _, deep, _⟩
    exact Nat.not_succ_le_zero _ deep
  | succ levels ih => exact decodeWith_derives fun bytes b => Bundle.decodeWithin_succ_iff fun bytes p => ih

/-- The bytes of a packet determine it. -/
theorem Wire.Derives.unique {bytes : List UInt8} {p q : Packet} (first : Derives bytes p) (second : Derives bytes q) :
    p = q := by
  have left := Packet.decodeWithin_iff.mpr ⟨first, le_max_left p.depth q.depth⟩
  have right := Packet.decodeWithin_iff.mpr ⟨second, le_max_right p.depth q.depth⟩
  rw [left] at right
  exact Except.ok.inj right

/-- The decoder gives a packet exactly on the bytes that derive it in the grammar, as long as bundles are nested at
    most thirty-two deep. Such bytes are a positive multiple of four, and they derive no other packet. -/
theorem Packet.decode_iff_derives (bytes : List UInt8) (p : Packet) :
    (decode bytes = .ok p ↔ Derives bytes p ∧ p.depth ≤ maxDepth) ∧
      (Derives bytes p → 0 < bytes.length ∧ bytes.length % 4 = 0 ∧ ∀ q, Derives bytes q → q = p) :=
  ⟨decodeWithin_iff, fun derives => ⟨derives.length_pos, derives.aligned, fun _ other => other.unique derives⟩⟩

theorem Packet.decode_dirty_blob :
    let bytes := bundleHeader ++ bigEndian 8 1 ++
      (bigEndian 4 20 ++ [47, 0, 0, 0, 44, 98, 0, 0, 0, 0, 0, 1, 7, 1, 2, 3, 9, 9, 9, 9])
    let p := bundle .immediate [message ⟨"/", [.blob [7]]⟩]
    decode bytes = .ok p ∧ Derives bytes p ∧ ∀ q, Derives bytes q → q = p := by
  intro bytes p
  have address : StringForm "/" [47, 0, 0, 0] := ⟨by decide, 2, by decide, rfl, rfl⟩
  have tags : StringForm ",b" [44, 98, 0, 0] := ⟨by decide, 1, by decide, rfl, rfl⟩
  have blob : Payload (.blob [7]) [0, 0, 0, 1, 7, 1, 2, 3] := by exact ⟨by decide, [1, 2, 3], rfl, rfl⟩
  have first : Derives ([47, 0, 0, 0] ++ [44, 98, 0, 0] ++ ([0, 0, 0, 1, 7, 1, 2, 3] ++ []) ++ [9, 9, 9, 9])
      (message ⟨"/", [.blob [7]]⟩) := .message rfl address tags (.cons blob .nil) rfl
  have derives : Derives bytes p := .bundle ⟨1, rfl, rfl⟩ (.cons (by decide) first .nil) rfl
  exact ⟨(Packet.decode_iff_derives bytes p).1.mpr ⟨derives, by decide⟩, derives,
    ((Packet.decode_iff_derives bytes p).2 derives).2.2⟩

theorem Wire.DerivesAll.aligned {bytes : List UInt8} {ps : List Packet} (derives : DerivesAll bytes ps) :
    bytes.length % 4 = 0 := by
  induction ps generalizing bytes with
  | nil =>
    cases derives
    rfl
  | cons p ps ih =>
    cases derives with
    | cons small first others =>
      have child := first.aligned
      have behind := ih others
      rw [List.length_append, List.length_append, bigEndian_length]
      omega

/-- The decoder of bundles asks for no alignment, but what it accepts is aligned, because its elements are. -/
theorem Bundle.decodeWithin_iff {levels : Nat} {bytes : List UInt8} {b : Bundle} :
    decodeWithin levels bytes = .ok b ↔ Derives bytes b.toPacket ∧ b.toPacket.depth ≤ levels := by
  cases levels with
  | zero =>
    refine iff_of_false (by simp [decodeWithin]) ?_
    rintro ⟨-, deep⟩
    exact Nat.not_succ_le_zero _ deep
  | succ levels =>
    rw [decodeWithin_succ_iff fun _ _ => Packet.decodeWithin_iff]
    constructor
    · rintro ⟨time, elements, timeForm, derives, shallow, rfl⟩
      obtain ⟨raw, same, rfl⟩ := timeForm
      have behind := derives.aligned
      refine ⟨.bundle ⟨raw, same, rfl⟩ derives ?_, shallow⟩
      rw [List.length_append, List.length_append, bigEndian_length, bundleHeader]
      simp only [List.length_cons, List.length_nil]
      omega
    · rintro ⟨derives, shallow⟩
      obtain ⟨t, ps⟩ := b
      cases derives with
      | bundle timeForm elements aligned => exact ⟨_, _, timeForm, elements, shallow, rfl⟩

/-- A message is what the decoder of messages reads, if the bytes are aligned and the address begins with a slash. -/
theorem Packet.decodeWithin_message_iff {levels : Nat} {bytes : List UInt8} {m : Message} :
    decodeWithin levels bytes = .ok (.message m) ↔
      Message.decode bytes = .ok m ∧ bytes.length % 4 = 0 ∧ m.address.toList.head? = some '/' := by
  have named (read : Message.decode bytes = .ok m) :
      bytes.head? = some 47 ↔ m.address.toList.head? = some '/' := by
    obtain ⟨address, tags, arguments, trailing, addressForm, -, -, rfl⟩ := Message.decode_iff.mp read
    rw [List.append_assoc, List.append_assoc, addressForm.head?_iff]
  rw [decodeWithin, decodeWith_iff]
  constructor
  · rintro ⟨aligned, ⟨slash, _, read, same⟩ | ⟨-, _, -, other⟩⟩
    · cases same
      exact ⟨read, aligned, (named read).mp slash⟩
    · cases other
  · rintro ⟨read, aligned, slash⟩
    exact ⟨aligned, .inl ⟨(named read).mpr slash, m, read, rfl⟩⟩

/-- The decoders of packets, of bundles and of messages accept the same. The one of bundles accepts just what is a bundle
    for the one of packets, all of which is a positive multiple of four bytes long; what the one of messages accepts is a
    message for the one of packets exactly if it is aligned and its address begins with a slash. -/
theorem Packet.decoders_agree (bytes : List UInt8) :
    (∀ b : Bundle, Bundle.decode bytes = .ok b ↔ decode bytes = .ok (.bundle b.timeTag b.elements)) ∧
    (∀ b, Bundle.decode bytes = .ok b → 0 < bytes.length ∧ bytes.length % 4 = 0) ∧
    ∀ m, decode bytes = .ok (.message m) ↔
      Message.decode bytes = .ok m ∧ bytes.length % 4 = 0 ∧ m.address.toList.head? = some '/' := by
  refine ⟨fun b => ?_, fun b read => ?_, fun m => decodeWithin_message_iff⟩
  · rw [Bundle.decode, decode, Bundle.decodeWithin_iff, decodeWithin_iff]
    rfl
  · obtain ⟨derives, -⟩ := Bundle.decodeWithin_iff.mp read
    exact ⟨derives.length_pos, derives.aligned⟩

end OpenSound
