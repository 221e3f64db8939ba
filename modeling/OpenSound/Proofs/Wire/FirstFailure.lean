import Mathlib.Data.Nat.Find
import OpenSound.Proofs.Wire.Arguments
import OpenSound.Proofs.Wire.Elements
import OpenSound.Proofs.Wire.Failures

/-!
# The first failure

What is wrong with a packet is decided by the first thing that is wrong with it. A bundle is read element by element up
to one that fails, or whose size is not all there, or that is longer than what is left, and nothing behind that place
has a say. Through bundles in bundles, the error that comes out spells the path to the first piece that fails, where
the elements of a bundle come one after another, and the bundle behind them. A message's arguments are read in the
same way, up to the first one whose tag or payload is bad.
-/

namespace OpenSound

open Wire

namespace Error

/-- The message of an error in a bundle is the words of that kind of error, and then its own. -/
theorem message_element (k : Nat) (cause : Error) :
    (element k cause).message = "malformed bundle: " ++ ("element " ++ toString k ++ ": " ++ cause.message) := by
  show ("malformed bundle: " ++ "element ") ++ toString k ++ ": " ++ cause.message = _
  simp only [String.append_assoc]

private theorem message_elementSize (k : Nat) (fault : DataFault) :
    (elementSize k fault).message =
      "malformed bundle: " ++ ("element " ++ toString k ++ " size: " ++ fault.message) := by
  show ("malformed bundle: " ++ "element ") ++ toString k ++ " size: " ++ fault.message = _
  simp only [String.append_assoc]

private theorem message_elementTruncated (k declared available : Nat) :
    (elementTruncated k declared available).message = "malformed bundle: " ++
      ("element " ++ toString k ++ " declares " ++ toString declared ++ " bytes, " ++ toString available ++
        " available") := by
  show ("malformed bundle: " ++ "element ") ++ toString k ++ " declares " ++ toString declared ++ " bytes, " ++
    toString available ++ " available" = _
  simp only [String.append_assoc]

end Error

namespace Bundle

/-- What stops the reading of elements at one of them, and the error it stops with: the element fails, whatever stands
    behind it, or the bytes end in its size, or it declares more bytes than there are. -/
inductive Stop (child : List UInt8 → Except Error Packet) (k : Nat) : List UInt8 → Error → Prop
  | failing {piece : List UInt8} {e : Error} (tail : List UInt8) :
    piece.length < UInt32.size → child piece = .error e →
    Stop child k (bigEndian 4 piece.length ++ piece ++ tail) (elementError k e)
  | size {slot : List UInt8} : 0 < slot.length → slot.length < 4 →
    Stop child k slot (.elementSize k (.endOfData 4 slot.length))
  | truncated {declared : Nat} {available : List UInt8} : declared < UInt32.size → available.length < declared →
    Stop child k (bigEndian 4 declared ++ available) (.elementTruncated k declared available.length)

/-- Pieces that are read as packets, each short enough for its size. -/
abbrev Reads (child : List UInt8 → Except Error Packet) : List (List UInt8) → List Packet → Prop :=
  List.Forall₂ fun piece p => piece.length < UInt32.size ∧ child piece = .ok p

variable {child : List UInt8 → Except Error Packet}

theorem exists_reads_iff {pieces : List (List UInt8)} :
    (∃ ps, Reads child pieces ps) ↔ ∀ piece ∈ pieces, piece.length < UInt32.size ∧ ∃ p, child piece = .ok p := by
  induction pieces with
  | nil => exact ⟨fun _ _ member => absurd member List.not_mem_nil, fun _ => ⟨[], .nil⟩⟩
  | cons piece pieces ih =>
    rw [List.forall_mem_cons, ← ih]
    constructor
    · rintro ⟨_, each⟩
      cases each with
      | cons first others => exact ⟨⟨first.1, _, first.2⟩, _, others⟩
    · rintro ⟨⟨small, p, read⟩, ps, others⟩
      exact ⟨p :: ps, .cons ⟨small, read⟩ others⟩

theorem readElements_nil (index : Nat) : readElements child index [] = .ok [] := by
  rw [readElements]
  rfl

/-- Elements that are read are in front of whatever is read behind them. -/
theorem readElements_sized {front : List (List UInt8)} {ps : List Packet} (each : Reads child front ps) (index : Nat)
    (rest : List UInt8) : readElements child index (sized front ++ rest) =
      (readElements child (index + front.length) rest).map (ps ++ ·) := by
  induction each generalizing index with
  | nil =>
    rw [sized_nil, List.nil_append, List.length_nil, Nat.add_zero]
    cases readElements child index rest <;> rfl
  | @cons piece p front ps first others ih =>
    rw [sized_cons, List.append_assoc (bigEndian 4 piece.length ++ piece), readElements_framed first.1, first.2, ih,
      List.length_cons, Nat.add_right_comm, ← Nat.add_assoc]
    cases readElements child (index + front.length + 1) rest <;> rfl

private theorem readElements_stop {k : Nat} {rest : List UInt8} {e : Error} (stop : Stop child k rest e) :
    readElements child k rest = .error e := by
  cases stop with
  | failing tail small failed =>
    rw [readElements_framed small, failed]
    rfl
  | size some short =>
    have few : (rest.take 4).length < 4 := by
      rw [List.length_take]
      omega
    have inhabited : ¬rest.isEmpty := by
      rw [List.isEmpty_iff_length_eq_zero]
      omega
    rw [readElements_eq inhabited, readNumber, if_pos few]
  | @truncated declared available bound short =>
    have number : readNumber 4 (bigEndian 4 declared ++ available) = (.ok declared, available) :=
      readNumber_iff.mpr ⟨bound, rfl⟩
    rw [readElements_eq (by simp [bigEndian]), number]
    dsimp only
    rw [if_pos short]

/-- Any bytes are elements that are read, up to their end or up to something that stops the reading. -/
theorem exists_reads (child : List UInt8 → Except Error Packet) (index : Nat) (bytes : List UInt8) :
    ∃ front ps, Reads child front ps ∧
      (bytes = sized front ∨ ∃ rest e, bytes = sized front ++ rest ∧ Stop child (index + front.length) rest e) := by
  induction length : bytes.length using Nat.strong_induction_on generalizing index bytes with
  | h n shorter =>
    by_cases empty : bytes = []
    · exact ⟨[], [], .nil, .inl empty⟩
    by_cases cut : bytes.length < 4
    · exact ⟨[], [], .nil, .inr ⟨bytes, _, rfl, .size (List.length_pos_iff.mpr empty) cut⟩⟩
    obtain ⟨size, rest, bound, rfl⟩ := exists_bigEndian (Nat.le_of_not_lt cut)
    by_cases short : rest.length < size
    · exact ⟨[], [], .nil, .inr ⟨_, _, rfl, .truncated bound short⟩⟩
    obtain ⟨piece, tail, rfl, rfl⟩ : ∃ piece tail, rest = piece ++ tail ∧ size = piece.length :=
      ⟨rest.take size, rest.drop size, (List.take_append_drop ..).symm, by rw [List.length_take]; omega⟩
    rw [← List.append_assoc]
    cases outcome : child piece with
    | error e => exact ⟨[], [], .nil, .inr ⟨_, _, rfl, .failing tail bound outcome⟩⟩
    | ok p =>
      have less : tail.length < n := by
        rw [← length, List.length_append, List.length_append, bigEndian_length]
        omega
      obtain ⟨front, ps, each, found⟩ := shorter tail.length less (index + 1) tail rfl
      refine ⟨piece :: front, p :: ps, .cons ⟨bound, outcome⟩ each, ?_⟩
      have place : index + 1 + front.length = index + (piece :: front).length := by
        rw [List.length_cons]
        omega
      obtain rfl | ⟨rest, e, rfl, stop⟩ := found
      · exact .inl rfl
      · exact .inr ⟨rest, e, (List.append_assoc ..).symm, place ▸ stop⟩

/-- Elements are read exactly from their sizes and bytes, all of them. -/
theorem readElements_ok_iff {index : Nat} {bytes : List UInt8} {ps : List Packet} :
    readElements child index bytes = .ok ps ↔ ∃ children, Reads child children ps ∧ bytes = sized children := by
  have whole {children : List (List UInt8)} {ps : List Packet} (each : Reads child children ps) :
      readElements child index (sized children) = .ok ps := by
    have read := readElements_sized each index []
    rwa [List.append_nil, readElements_nil, Except.map, List.append_nil] at read
  constructor
  · intro read
    obtain ⟨front, qs, each, rfl | ⟨rest, e, rfl, stop⟩⟩ := exists_reads child index bytes
    · rw [whole each] at read
      cases read
      exact ⟨front, each, rfl⟩
    · rw [readElements_sized each, readElements_stop stop] at read
      cases read
  · rintro ⟨children, each, rfl⟩
    exact whole each

/-- Reading elements fails exactly if something stops it behind elements that are read, and with the error of that. -/
theorem readElements_error_iff {index : Nat} {bytes : List UInt8} {e : Error} :
    readElements child index bytes = .error e ↔ ∃ front ps rest, Reads child front ps ∧ bytes = sized front ++ rest ∧
      Stop child (index + front.length) rest e := by
  constructor
  · intro failed
    obtain ⟨front, ps, each, rfl | ⟨rest, e', rfl, stop⟩⟩ := exists_reads child index bytes
    · rw [readElements_ok_iff.mpr ⟨front, each, rfl⟩] at failed
      cases failed
    · rw [readElements_sized each, readElements_stop stop] at failed
      cases failed
      exact ⟨front, ps, rest, each, rfl, stop⟩
  · rintro ⟨front, ps, rest, each, rfl, stop⟩
    rw [readElements_sized each, readElements_stop stop]
    rfl

/-- What a bundle's bytes are decoded to is told by what stands behind its time tag. -/
theorem decodeWithin_opening {t : TimeTag} {time : List UInt8} (form : TimeTagForm t time) (levels : Nat)
    (elements : List UInt8) : decodeWithin (levels + 1) (bundleHeader ++ time ++ elements) =
      (readElements (Packet.decodeWithin levels) 0 elements).map (Bundle.mk t) := by
  have first : readString (bundleHeader ++ time ++ elements) = (.ok bundleIdentifier, time ++ elements) :=
    readString_iff.mpr ⟨bundleHeader, stringForm_bundleIdentifier.mpr rfl, List.append_assoc ..⟩
  have second : readTimeTag (time ++ elements) = (.ok t, elements) := readTimeTag_iff.mpr ⟨time, form, rfl⟩
  have same : Packet.decodeWith (decodeWithin levels) = Packet.decodeWithin levels := rfl
  rw [decodeWithin]
  simp only [first, second, same, ne_eq, not_true_eq_false, if_false]
  cases readElements (Packet.decodeWithin levels) 0 elements <;> rfl

/-- The front of a bundle in front of its elements. -/
def IsOpening (opening : List UInt8) : Prop := ∃ time, time.length = 8 ∧ opening = bundleHeader ++ time

theorem IsOpening.exists_timeTag {opening : List UInt8} (opens : IsOpening opening) :
    ∃ t time, TimeTagForm t time ∧ opening = bundleHeader ++ time := by
  obtain ⟨time, width, rfl⟩ := opens
  obtain ⟨raw, rest, bound, rfl⟩ := exists_bigEndian (Nat.le_of_eq width.symm)
  have nothing : rest = [] := by simpa using width
  subst nothing
  refine ⟨_, _, ⟨UInt64.ofNat raw, rfl, ?_⟩, rfl⟩
  rw [List.append_nil, UInt64.toNat_ofNat_of_lt' bound]

/-- What stops the reading of a bundle's elements decides the bundle's error. -/
theorem decodeWithin_stop {levels : Nat} {opening rest : List UInt8} {front : List (List UInt8)} {ps : List Packet}
    {e : Error} (opens : IsOpening opening) (each : Reads (Packet.decodeWithin levels) front ps)
    (stop : Stop (Packet.decodeWithin levels) front.length rest e) :
    decodeWithin (levels + 1) (opening ++ sized front ++ rest) = .error e := by
  obtain ⟨t, time, form, rfl⟩ := opens.exists_timeTag
  have failed : readElements (Packet.decodeWithin levels) 0 (sized front ++ rest) = .error e :=
    readElements_error_iff.mpr ⟨front, ps, rest, each, rfl, by rwa [Nat.zero_add]⟩
  rw [List.append_assoc (bundleHeader ++ time), decodeWithin_opening form, failed]
  rfl

/-- A bundle is its opening and elements that are packets, all of them. -/
theorem reads_of_decodeWithin {levels : Nat} {bytes : List UInt8} {b : Bundle}
    (read : decodeWithin (levels + 1) bytes = .ok b) : ∃ opening children, IsOpening opening ∧
      Reads (Packet.decodeWithin levels) children b.elements ∧ bytes = opening ++ sized children := by
  obtain ⟨t, ps⟩ := b
  obtain ⟨time, elements, form, -, -, rfl⟩ :=
    (decodeWithin_succ_iff fun _ _ => Packet.decodeWithin_iff).mp read
  rw [decodeWithin_opening form] at read
  obtain ⟨raw, -, rfl⟩ := form
  cases outcome : readElements (Packet.decodeWithin levels) 0 elements with
  | error e =>
    rw [outcome] at read
    cases read
  | ok qs =>
    rw [outcome] at read
    cases read
    obtain ⟨children, each, rfl⟩ := readElements_ok_iff.mp outcome
    exact ⟨_, children, ⟨_, bigEndian_length 8 _, rfl⟩, each, rfl⟩

/-- A bundle is malformed, and the error says so in these words. -/
def IsMalformed (levels : Nat) (bytes : List UInt8) (text : String) : Prop :=
  ∃ e, decodeWithin levels bytes = .error e ∧ e.kind = .malformedBundle ∧ e.message = "malformed bundle: " ++ text

/-- What is said of a bundle behind a part of it that is read, its first `k` elements: what stands there decides its
    error. An element that is nested too deep is the bundle's own error. Any other that fails is named by its index,
    and so is one whose size is not all there, and one that declares more bytes than there are. -/
structure DecidedBehind (levels : Nat) (read : List UInt8) (k : Nat) : Prop where
  tooDeep : ∀ piece tail e, piece.length < UInt32.size → Packet.decodeWithin levels piece = .error e →
    e.kind = .nestingTooDeep →
    decodeWithin (levels + 1) (read ++ (bigEndian 4 piece.length ++ piece ++ tail)) = .error e
  failing : ∀ piece tail e, piece.length < UInt32.size → Packet.decodeWithin levels piece = .error e →
    e.kind ≠ .nestingTooDeep →
    IsMalformed (levels + 1) (read ++ (bigEndian 4 piece.length ++ piece ++ tail))
      ("element " ++ toString k ++ ": " ++ e.message)
  size : ∀ slot, 0 < slot.length → slot.length < 4 →
    IsMalformed (levels + 1) (read ++ slot)
      ("element " ++ toString k ++ " size: " ++ (DataFault.endOfData 4 slot.length).message)
  truncated : ∀ declared available, declared < UInt32.size → available.length < declared →
    IsMalformed (levels + 1) (read ++ (bigEndian 4 declared ++ available))
      ("element " ++ toString k ++ " declares " ++ toString declared ++ " bytes, " ++ toString available.length ++
        " available")

private theorem decidedBehind {levels : Nat} {opening : List UInt8} {front : List (List UInt8)} {ps : List Packet}
    (opens : IsOpening opening) (each : Reads (Packet.decodeWithin levels) front ps) :
    DecidedBehind levels (opening ++ sized front) front.length where
  tooDeep piece tail e small failed deep := by
    have stops := decodeWithin_stop opens each (.failing tail small failed)
    rwa [elementError_deep deep] at stops
  failing piece tail e small failed other := by
    have stops := decodeWithin_stop opens each (.failing tail small failed)
    rw [elementError_other other] at stops
    exact ⟨_, stops, rfl, Error.message_element ..⟩
  size slot some short := by
    have stops := decodeWithin_stop opens each (.size some short)
    exact ⟨_, stops, rfl, Error.message_elementSize ..⟩
  truncated declared available bound short := by
    have stops := decodeWithin_stop opens each (.truncated bound short)
    exact ⟨_, stops, rfl, Error.message_elementTruncated ..⟩

/-- The bytes of one element of a bundle, whatever stands behind it. -/
def ElementAt (k : Nat) (bytes piece : List UInt8) : Prop :=
  ∃ opening front tail, IsOpening opening ∧ (∀ other ∈ front ++ [piece], other.length < UInt32.size) ∧
    front.length = k ∧ bytes = opening ++ (sized (front ++ [piece]) ++ tail)

variable {levels k : Nat} {bytes piece : List UInt8}

theorem IsOpening.length {opening : List UInt8} (opens : IsOpening opening) : opening.length = 16 := by
  obtain ⟨time, width, rfl⟩ := opens
  rw [List.length_append, width]
  rfl

/-- The sizes leave no choice where an element stands. -/
theorem ElementAt.unique {piece' : List UInt8} (first : ElementAt k bytes piece) (second : ElementAt k bytes piece') :
    piece = piece' := by
  obtain ⟨opening, front, tail, opens, small, rfl, rfl⟩ := first
  obtain ⟨opening', front', tail', opens', small', same, equal⟩ := second
  obtain ⟨-, elements⟩ := List.append_inj equal (by rw [opens.length, opens'.length])
  have before : sized (front ++ [piece]) <+: sized (front ++ [piece]) ++ tail := List.prefix_append ..
  have before' : sized (front' ++ [piece']) <+: sized (front ++ [piece]) ++ tail := elements ▸ List.prefix_append ..
  have lengths : (front ++ [piece]).length = (front' ++ [piece']).length := by simp [same]
  have pieces : front ++ [piece] = front' ++ [piece'] := by
    obtain shorter | longer := List.prefix_or_prefix_of_prefix before before'
    · have first := prefix_of_sized_prefix small small' shorter
      exact first.eq_of_length lengths
    · have second := prefix_of_sized_prefix small' small longer
      exact (second.eq_of_length lengths.symm).symm
  exact List.singleton_inj.mp (List.append_inj_right' pieces rfl)

end Bundle

namespace Packet

theorem decodeWithin_opening {opening elements : List UInt8} (opens : Bundle.IsOpening opening)
    (aligned : (opening ++ elements).length % 4 = 0) (levels : Nat) :
    decodeWithin levels (opening ++ elements) =
      (Bundle.decodeWithin levels (opening ++ elements)).map Bundle.toPacket := by
  obtain ⟨time, -, rfl⟩ := opens
  unfold decodeWithin decodeWith
  rw [if_neg (not_not_intro aligned)]
  rfl

/-- A bundle is a packet only if its elements are. -/
theorem decodes_of_elementAt {levels k : Nat} {bytes piece : List UInt8} {p : Packet}
    (read : decodeWithin (levels + 1) bytes = .ok p) (element : Bundle.ElementAt k bytes piece) :
    ∃ q, decodeWithin levels piece = .ok q := by
  obtain ⟨opening, front, tail, opens, small, -, rfl⟩ := element
  rw [decodeWithin_opening opens (decodeWith_iff.mp read).1] at read
  cases outcome : Bundle.decodeWithin (levels + 1) (opening ++ (sized (front ++ [piece]) ++ tail)) with
  | error e =>
    rw [outcome] at read
    cases read
  | ok b =>
    obtain ⟨opening', children, opens', each, whole⟩ := Bundle.reads_of_decodeWithin outcome
    obtain ⟨-, elements⟩ := List.append_inj whole (by rw [opens.length, opens'.length])
    have decodes := Bundle.exists_reads_iff.mp ⟨b.elements, each⟩
    have first : front ++ [piece] <+: children :=
      prefix_of_sized_prefix small (fun other member => (decodes other member).1) ⟨tail, elements⟩
    exact (decodes piece (first.subset (by simp))).2

/-- The first element that fails decides a bundle's error. -/
theorem decodeWithin_elementAt {levels k : Nat} {bytes piece : List UInt8} {e : Error} (aligned : bytes.length % 4 = 0)
    (element : Bundle.ElementAt k bytes piece) (failed : decodeWithin levels piece = .error e)
    (before : ∀ i other, i < k → Bundle.ElementAt i bytes other → ∃ q, decodeWithin levels other = .ok q) :
    decodeWithin (levels + 1) bytes = .error (Bundle.elementError k e) := by
  obtain ⟨opening, front, tail, opens, small, rfl, rfl⟩ := element
  -- each element in front of the failing one lies at an index of its own
  obtain ⟨ps, each⟩ : ∃ ps, Bundle.Reads (decodeWithin levels) front ps := by
    refine Bundle.exists_reads_iff.mpr fun other member => ⟨small other (List.mem_append_left _ member), ?_⟩
    obtain ⟨early, late, rfl⟩ := List.append_of_mem member
    refine before early.length other (by simp) ⟨opening, early, sized (late ++ [piece]) ++ tail, opens, ?_, rfl, ?_⟩
    · exact fun other' member' => small other' (by simp at member' ⊢; tauto)
    · simp
  have stop : Bundle.Stop (decodeWithin levels) front.length (bigEndian 4 piece.length ++ piece ++ tail)
      (Bundle.elementError front.length e) := .failing tail (small piece (by simp)) failed
  have whole : opening ++ (sized (front ++ [piece]) ++ tail) =
      opening ++ sized front ++ (bigEndian 4 piece.length ++ piece ++ tail) := by simp
  rw [decodeWithin_opening opens aligned, whole, Bundle.decodeWithin_stop opens each stop]
  rfl

/-! ## Paths -/

/-- The pieces that a packet is read in, by the indices that lead to them and the levels of bundles that may be opened
    there: all of the packet, and inside a bundle those of its elements. -/
inductive LiesAt : Nat → List UInt8 → List Nat → Nat → List UInt8 → Prop
  | here {levels : Nat} {bytes : List UInt8} : LiesAt levels bytes [] levels bytes
  | inside {levels left k : Nat} {path : List Nat} {bytes element piece : List UInt8} : bytes.length % 4 = 0 →
    Bundle.ElementAt k bytes element → LiesAt levels element path left piece →
    LiesAt (levels + 1) bytes (k :: path) left piece

/-- Depth first, the elements of a bundle come one after another, and the bundle comes behind them. -/
inductive Before : List Nat → List Nat → Prop
  | inside (k : Nat) (path : List Nat) : Before (k :: path) []
  | earlier {i k : Nat} (path path' : List Nat) : i < k → Before (i :: path) (k :: path')
  | within (k : Nat) {path path' : List Nat} : Before path path' → Before (k :: path) (k :: path')

theorem Before.total {path path' : List Nat} (distinct : path ≠ path') : Before path path' ∨ Before path' path := by
  induction path generalizing path' with
  | nil =>
    cases path' with
    | nil => exact absurd rfl distinct
    | cons k path' => exact .inr (.inside k path')
  | cons i path ih =>
    cases path' with
    | nil => exact .inl (.inside i path)
    | cons k path' =>
      obtain less | rfl | more := Nat.lt_trichotomy i k
      · exact .inl (.earlier path path' less)
      · exact (ih fun same => distinct (same ▸ rfl)).imp (.within i) (.within i)
      · exact .inr (.earlier path' path more)

theorem LiesAt.unique {levels left left' : Nat} {path : List Nat} {bytes piece piece' : List UInt8}
    (first : LiesAt levels bytes path left piece) (second : LiesAt levels bytes path left' piece') :
    left = left' ∧ piece = piece' := by
  induction first with
  | here =>
    cases second
    exact ⟨rfl, rfl⟩
  | inside _ element _ ih =>
    cases second with
    | inside _ other lies =>
      cases element.unique other
      exact ih lies

/-- The first piece of a packet that fails, depth first, and the error it fails with. -/
structure FirstFailure (levels : Nat) (bytes : List UInt8) (path : List Nat) (cause : Error) : Prop where
  fails : ∃ left piece, LiesAt levels bytes path left piece ∧ decodeWithin left piece = .error cause
  before : ∀ path' left piece, Before path' path → LiesAt levels bytes path' left piece →
    ∃ p, decodeWithin left piece = .ok p

theorem FirstFailure.unique {levels : Nat} {bytes : List UInt8} {path path' : List Nat} {cause cause' : Error}
    (first : FirstFailure levels bytes path cause) (second : FirstFailure levels bytes path' cause') :
    path = path' ∧ cause = cause' := by
  obtain ⟨left, piece, lies, failed⟩ := first.fails
  obtain ⟨left', piece', lies', failed'⟩ := second.fails
  by_cases same : path = path'
  · subst same
    obtain ⟨rfl, rfl⟩ := lies.unique lies'
    exact ⟨rfl, Except.error.inj (failed.symm.trans failed')⟩
  · exfalso
    obtain earlier | later := Before.total same
    · obtain ⟨p, read⟩ := second.before path left piece earlier lies
      rw [failed] at read
      cases read
    · obtain ⟨p, read⟩ := first.before path' left' piece' later lies'
      rw [failed'] at read
      cases read

/-- A packet is read only if all its pieces are. -/
theorem decodes_of_liesAt {levels left : Nat} {path : List Nat} {bytes piece : List UInt8}
    (lies : LiesAt levels bytes path left piece) {p : Packet} (read : decodeWithin levels bytes = .ok p) :
    ∃ q, decodeWithin left piece = .ok q := by
  induction lies generalizing p with
  | here => exact ⟨p, read⟩
  | inside _ element _ ih =>
    obtain ⟨q, readElement⟩ := decodes_of_elementAt read element
    exact ih readElement

theorem FirstFailure.decodeWithin_eq {levels : Nat} {path : List Nat} {bytes : List UInt8} {cause : Error}
    (first : FirstFailure levels bytes path cause) :
    decodeWithin levels bytes = .error (path.foldr Bundle.elementError cause) := by
  induction path generalizing levels bytes with
  | nil =>
    obtain ⟨left, piece, lies, failed⟩ := first.fails
    cases lies
    exact failed
  | cons k path ih =>
    obtain ⟨left, piece, lies, failed⟩ := first.fails
    cases lies with
    | @inside levels _ _ _ _ element _ aligned at_ lies =>
      have inner : FirstFailure levels element path cause :=
        ⟨⟨left, piece, lies, failed⟩, fun path' left piece before lies =>
          first.before (k :: path') left piece (.within k before) (.inside aligned at_ lies)⟩
      exact decodeWithin_elementAt aligned at_ (ih inner) fun i other less otherAt =>
        first.before [i] levels other (.earlier _ _ less) (.inside aligned otherAt .here)

/-- A packet is its own first failure if none of its elements fails. -/
theorem firstFailure_nil {levels : Nat} {bytes : List UInt8} {e : Error}
    (failed : decodeWithin levels bytes = .error e)
    (elements : ∀ levels' k element, levels = levels' + 1 → bytes.length % 4 = 0 → Bundle.ElementAt k bytes element →
      ∃ q, decodeWithin levels' element = .ok q) : FirstFailure levels bytes [] e := by
  refine ⟨⟨levels, bytes, .here, failed⟩, fun path' left piece before lies => ?_⟩
  cases before
  cases lies with
  | inside aligned element lies =>
    obtain ⟨q, read⟩ := elements _ _ _ rfl aligned element
    exact decodes_of_liesAt lies read

/-- The first failure of a bundle's first element that fails is the first failure of the bundle. -/
theorem FirstFailure.inside {levels k : Nat} {bytes element : List UInt8} {path : List Nat} {cause : Error}
    (first : FirstFailure levels element path cause) (aligned : bytes.length % 4 = 0)
    (elementAt : Bundle.ElementAt k bytes element)
    (before : ∀ i other, i < k → Bundle.ElementAt i bytes other → ∃ q, decodeWithin levels other = .ok q) :
    FirstFailure (levels + 1) bytes (k :: path) cause := by
  obtain ⟨left, piece, lies, failed⟩ := first.fails
  refine ⟨⟨left, piece, .inside aligned elementAt lies, failed⟩, fun path' left piece earlier lies => ?_⟩
  cases earlier with
  | earlier _ _ less =>
    cases lies with
    | inside _ other lies =>
      obtain ⟨q, read⟩ := before _ _ less other
      exact decodes_of_liesAt lies read
  | within _ earlier =>
    cases lies with
    | inside _ same lies =>
      cases elementAt.unique same
      exact first.before _ _ _ earlier lies

private theorem exists_ok {outcome : Except Error Packet} (never : ∀ e, outcome ≠ .error e) : ∃ p, outcome = .ok p := by
  cases outcome with
  | ok p => exact ⟨p, rfl⟩
  | error e => exact absurd rfl (never e)

private theorem exists_firstFailure {levels : Nat} {bytes : List UInt8} {e : Error}
    (failed : decodeWithin levels bytes = .error e) : ∃ path cause, FirstFailure levels bytes path cause := by
  induction levels generalizing bytes e with
  | zero => exact ⟨[], e, firstFailure_nil failed fun _ _ _ deeper => by cases deeper⟩
  | succ levels ih =>
    -- the path goes on with the least index of an element that fails, and ends here if there is none
    by_cases broken : ∃ k, bytes.length % 4 = 0 ∧ ∃ element, Bundle.ElementAt k bytes element ∧
        ∃ e, decodeWithin levels element = .error e
    · classical
      obtain ⟨aligned, element, elementAt, e', failedElement⟩ := Nat.find_spec broken
      obtain ⟨path, cause, first⟩ := ih failedElement
      refine ⟨_, cause, first.inside aligned elementAt fun i other less otherAt => exists_ok fun e failedOther => ?_⟩
      exact Nat.find_min broken less ⟨aligned, other, otherAt, e, failedOther⟩
    · refine ⟨[], e, firstFailure_nil failed fun levels' k element same aligned elementAt => ?_⟩
      cases same
      exact exists_ok fun e failed => broken ⟨k, aligned, element, elementAt, e, failed⟩

/-- A packet fails exactly if one of its pieces is the first to fail, and its error is that piece's error inside one
    error for each bundle around the piece. -/
theorem decodeWithin_error_iff {levels : Nat} {bytes : List UInt8} {e : Error} :
    decodeWithin levels bytes = .error e ↔
      ∃ path cause, FirstFailure levels bytes path cause ∧ e = path.foldr Bundle.elementError cause := by
  constructor
  · intro failed
    obtain ⟨path, cause, first⟩ := exists_firstFailure failed
    refine ⟨path, cause, first, ?_⟩
    have same := first.decodeWithin_eq
    rw [failed] at same
    exact Except.error.inj same
  · rintro ⟨path, cause, first, rfl⟩
    exact first.decodeWithin_eq

/-- The words in front of what is wrong with a piece, one index for each bundle around it. -/
def pathText (path : List Nat) : String :=
  String.join (path.map fun k => "malformed bundle: element " ++ toString k ++ ": ")

/-- How the error of a packet tells that of its first piece that fails: nesting that is too deep stays as it is, and
    anything else is told with the path in front of it. -/
structure Tells (path : List Nat) (cause e : Error) : Prop where
  tooDeep : cause.kind = .nestingTooDeep → e = cause
  whole : path = [] → e = cause
  inside : path ≠ [] → cause.kind ≠ .nestingTooDeep → e.kind = .malformedBundle
  words : cause.kind ≠ .nestingTooDeep → e.message = pathText path ++ cause.message

private theorem Tells.kind_ne {path : List Nat} {cause e : Error} (tells : Tells path cause e)
    (other : cause.kind ≠ .nestingTooDeep) : e.kind ≠ .nestingTooDeep := by
  by_cases whole : path = []
  · rwa [tells.whole whole]
  · rw [tells.inside whole other]
    decide

theorem Tells.element {path : List Nat} {cause e : Error} (tells : Tells path cause e)
    (other : cause.kind ≠ .nestingTooDeep) (k : Nat) : Tells (k :: path) cause (.element k e) where
  tooDeep deep := absurd deep other
  whole none := absurd none (List.cons_ne_nil k path)
  inside _ _ := rfl
  words _ := by
    have words : pathText (k :: path) = "malformed bundle: element " ++ toString k ++ ": " ++ pathText path := by
      rw [pathText, List.map_cons, String.join_cons, pathText]
    rw [words, String.append_assoc, ← tells.words other]
    rfl

private theorem tells_foldr (path : List Nat) (cause : Error) :
    Tells path cause (path.foldr Bundle.elementError cause) := by
  by_cases deep : cause.kind = .nestingTooDeep
  · have same : path.foldr Bundle.elementError cause = cause := by
      induction path with
      | nil => rfl
      | cons k path ih => rw [List.foldr_cons, ih, Bundle.elementError_deep deep]
    exact ⟨fun _ => same, fun _ => same, fun _ other => absurd deep other, fun other => absurd deep other⟩
  · induction path with
    | nil => exact ⟨fun _ => rfl, fun _ => rfl, fun some => absurd rfl some, fun _ => by simp [pathText]⟩
    | cons k path ih =>
      rw [List.foldr_cons, Bundle.elementError_other (ih.kind_ne deep)]
      exact ih.element deep k

end Packet

/-- What follows a message's address and tags decides whether it is a message: its arguments, all of them or none. -/
theorem Message.decode_strings {address tags : String} {front middle : List UInt8}
    (addressForm : StringForm address front) (tagsForm : StringForm tags middle) (rest : List UInt8) :
    Message.decode (front ++ middle ++ rest) = (readArguments tags rest).1.map (Message.mk address) := by
  have first : readString (front ++ middle ++ rest) = (.ok address, middle ++ rest) :=
    readString_iff.mpr ⟨front, addressForm, List.append_assoc ..⟩
  have second : readString (middle ++ rest) = (.ok tags, rest) := readString_iff.mpr ⟨middle, tagsForm, rfl⟩
  rw [Message.decode]
  simp only [first, second]
  obtain ⟨outcome, left⟩ := readArguments tags rest
  cases outcome <;> rfl

/-- The first thing that is wrong with a packet decides its error, and nothing behind that has a say. In a bundle this
    is what stands behind the elements that are read, with any bytes behind it. Through bundles in bundles it is the one
    piece that is the first to fail, and the error spells the path to it. In a message it is the first argument whose
    tag or payload is bad, whatever tags follow, and whatever bytes do unless it is only too short. A message with fewer
    arguments than tags, or a bundle with fewer elements than its bytes have, is never read. -/
theorem Packet.first_failure_decides :
    (∀ levels opening front ps, Bundle.IsOpening opening → Bundle.Reads (decodeWithin levels) front ps →
      Bundle.DecidedBehind levels (opening ++ sized front) front.length) ∧
    (∀ levels bytes e, decodeWithin levels bytes = .error e ↔
      ∃ path cause, FirstFailure levels bytes path cause ∧ e = path.foldr Bundle.elementError cause) ∧
    (∀ levels bytes path cause e, FirstFailure levels bytes path cause → decodeWithin levels bytes = .error e →
      Tells path cause e ∧ ∀ path' cause', FirstFailure levels bytes path' cause' → path' = path ∧ cause' = cause) ∧
    (∀ as payload tag fault behind left, Payloads as payload → readArgument tag behind = (.error fault, left) →
      ∀ more rest, rest = [] ∨ fault.isShortage = false →
        ∃ e, readArguments (String.ofList (',' :: (as.map Argument.tag ++ tag :: more)))
            (payload ++ (behind ++ rest)) = (.error e, left ++ rest) ∧ e.kind = .malformedArgument ∧
          e.message = "malformed argument: argument " ++ toString as.length ++ " ('" ++ tag.toString ++ "'): " ++
            fault.message tag) ∧
    (∀ tags bytes e left, tags.toList.head? = some ',' → readArguments tags bytes = (.error e, left) →
      ∃ k tag fault, IsFirstBad tags.toList.tail bytes k tag fault left ∧ e = .argument k tag fault) ∧
    (∀ tags bytes as left, readArguments tags bytes = (.ok as, left) →
      tags = String.ofList (',' :: as.map Argument.tag)) ∧
    (∀ address tags front middle rest, StringForm address front → StringForm tags middle →
      Message.decode (front ++ middle ++ rest) = (readArguments tags rest).1.map (Message.mk address)) ∧
    (∀ levels bytes b, Bundle.decodeWithin (levels + 1) bytes = .ok b →
      ∃ opening children, Bundle.IsOpening opening ∧ Bundle.Reads (decodeWithin levels) children b.elements ∧
        bytes = opening ++ sized children) := by
  refine ⟨fun _ _ _ _ opens each => Bundle.decidedBehind opens each, fun _ _ _ => decodeWithin_error_iff,
    ?_, ?_, ?_, ?_, fun _ _ _ _ rest address tags => Message.decode_strings address tags rest,
    fun _ _ _ read => Bundle.reads_of_decodeWithin read⟩
  · intro levels bytes path cause e first failed
    have same := first.decodeWithin_eq
    rw [failed] at same
    cases same
    exact ⟨tells_foldr path cause, fun path' cause' other => other.unique first⟩
  · intro as payload tag fault behind left payloads bad more rest whole
    have longer : readArgument tag (behind ++ rest) = (.error fault, left ++ rest) := by
      obtain rfl | whole := whole
      · rw [List.append_nil, List.append_nil, bad]
      · exact readArgument_error_append bad whole rest
    refine ⟨.argument as.length tag fault, ?_, rfl, rfl⟩
    exact readArguments_error_iff.mpr (.inr ⟨_, _, _, _, String.toList_ofList,
      ⟨as, payload, more, behind ++ rest, rfl, rfl, payloads, rfl, longer⟩, rfl⟩)
  · intro tags bytes e left comma failed
    obtain ⟨bare, -⟩ | ⟨letters, k, tag, fault, spelled, bad, rfl⟩ := readArguments_error_iff.mp failed
    · exact absurd comma bare
    · rw [spelled]
      exact ⟨k, tag, fault, bad, rfl⟩
  · intro tags bytes as left read
    exact (readArguments_iff.mp read).1

/-- A message, a bundle with a byte that begins no packet, and what nobody looks at; and a string that does not end,
    with a tag behind it that names no type. -/
theorem Packet.first_failure_decides_nested :
    let opening := bundleHeader ++ bigEndian 8 1
    let read : List UInt8 := [47, 97, 0, 0, 44, 0, 0, 0]
    let unknown : List UInt8 := [0, 0, 0, 0]
    let inner := opening ++ (sized [] ++ (bigEndian 4 unknown.length ++ unknown ++ []))
    let bytes := opening ++ sized [read] ++ (bigEndian 4 inner.length ++ inner ++ [9, 9, 9])
    Bundle.IsMalformed maxDepth bytes
      "element 1: malformed bundle: element 0: unrecognized packet: first byte 0x00" ∧
    ∃ e, readArguments ",isx" ([0, 0, 0, 7] ++ ([65] ++ [])) = (.error e, [65]) ∧ e.kind = .malformedArgument ∧
      e.message = "malformed argument: argument 1 ('s'): malformed data: string is not NUL-terminated" := by
  intro opening read unknown inner bytes
  have opens : Bundle.IsOpening opening := ⟨bigEndian 8 1, rfl, rfl⟩
  have address : StringForm "/a" [47, 97, 0, 0] := ⟨by decide, 1, by decide, rfl, rfl⟩
  have tags : StringForm "," [44, 0, 0, 0] := ⟨by decide, 2, by decide, rfl, rfl⟩
  have decoded : Message.decode read = .ok ⟨"/a", []⟩ :=
    Message.decode_iff.mpr ⟨_, _, [], [], address, tags, .nil, rfl⟩
  have whole : Bundle.Reads (decodeWithin 31) [read] [message ⟨"/a", []⟩] :=
    .cons ⟨by decide, decodeWithin_message_iff.mpr ⟨decoded, by decide, rfl⟩⟩ .nil
  have fails : decodeWithin 30 unknown = .error (.unrecognizedPacket 0) := by
    simp [decodeWithin, decodeWith, unknown]
  obtain ⟨e, innerFails, kind, words⟩ :=
    (Packet.first_failure_decides.1 30 opening [] [] opens .nil).failing unknown [] _ (by decide) fails (by decide)
  have asPacket : decodeWithin 31 inner = .error e := by
    rw [List.append_assoc] at innerFails
    rw [decodeWithin_opening opens (by decide), innerFails]
    rfl
  have told := (Packet.first_failure_decides.1 31 opening _ _ opens whole).failing inner [9, 9, 9] e (by decide)
    asPacket (by rw [kind]; decide)
  have bad : readArgument 's' [65] = (.error (.data .unterminated), [65]) := rfl
  have payload : Payload (.int32 7) [0, 0, 0, 7] := rfl
  have seven : Payloads [.int32 7] [0, 0, 0, 7] := .cons payload .nil
  refine ⟨?_, Packet.first_failure_decides.2.2.2.1 _ _ _ _ _ _ seven bad ['x'] [] (.inl rfl)⟩
  have text : "element " ++ toString [read].length ++ ": " ++ e.message =
      "element 1: malformed bundle: element 0: unrecognized packet: first byte 0x00" := by
    rw [words]
    decide +kernel
  rw [text] at told
  exact told

end OpenSound
