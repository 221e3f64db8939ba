import OpenSound.Proofs.AddressSpace.Recording
import OpenSound.Proofs.Wire.Failures
import OpenSound.Proofs.Wire.RoundTrip
import OpenSound.Transport.Delivery

/-!
# Deliveries

Bytes that are no packet are noted as malformed, whatever is wrong with them, and have no other effect; neither have
bundles. So with handlers that only record, what is called, counted and logged for received bytes depends on these bytes
and the registered methods alone, and bytes that are no message can come and go between others without a trace in
theirs.
-/

namespace OpenSound

open Wire

namespace AddressSpace

private theorem deliver_malformed {bytes : List UInt8} {e : Error} (failed : Packet.decode bytes = .error e)
    (s : AddressSpace) :
    s.deliver bytes = s.drop (.malformed bytes.length e) := by
  simp only [deliver, failed, if_pos (Packet.failure_of_decode failed).isDecodeError]

private theorem deliver_bundle {bytes : List UInt8} {t : TimeTag} {ps : List Packet}
    (decoded : Packet.decode bytes = .ok (.bundle t ps)) (s : AddressSpace) :
    s.deliver bytes = s.drop (.bundle ps.length) := by
  simp only [deliver, decoded]

def IsMessage (bytes : List UInt8) : Prop := ∃ m, Packet.decode bytes = .ok (.message m)

/-- Bytes that are no message invoke nobody, and leave the methods and what handlers remember as they are. -/
theorem deliver_dropped {bytes : List UInt8} (other : ¬IsMessage bytes) (s : AddressSpace) :
    (s.deliver bytes).dispatch = ⟨s, [], 0, .finished⟩ := by
  cases decoded : Packet.decode bytes with
  | error e => rw [deliver_malformed decoded, drop]
  | ok p =>
    cases p with
    | message m => exact absurd ⟨m, decoded⟩ other
    | bundle t ps => rw [deliver_bundle decoded, drop]

private theorem deliver_never_failed (s : AddressSpace) (bytes : List UInt8) (e : Error) :
    .failed e ∉ (s.deliver bytes).log := by
  cases decoded : Packet.decode bytes with
  | error e' => simp [deliver_malformed decoded, drop]
  | ok p =>
    cases p with
    | bundle t ps => simp [deliver_bundle decoded, drop]
    | message m =>
      simp only [deliver, decoded]
      split <;> simp

end AddressSpace

/-- The error with which bytes fail to decode is decided by their length and their first byte: a length that is no
    positive multiple of four comes first, then a first byte that is neither a slash (47) nor a hash (35); a message
    fails as malformed data, packet or argument, and a bundle as a malformed bundle or because it is nested more than 32
    deep. Every such error counts as the fault of the received bytes, so these are dropped with one warning that they are
    malformed, and no other failure is ever logged. -/
theorem Packet.decode_failures (bytes : List UInt8) :
    (∀ n, decode bytes = .error (.invalidFraming n) ↔ n = bytes.length ∧ (n = 0 ∨ n % 4 ≠ 0)) ∧
    (∀ first, decode bytes = .error (.unrecognizedPacket first) ↔
      bytes.length % 4 = 0 ∧ bytes.head? = some first ∧ first ≠ 47 ∧ first ≠ 35) ∧
    (∀ e, decode bytes = .error e →
      (bytes.length % 4 = 0 → bytes.head? = some 47 →
        e.kind = .malformedData ∨ e.kind = .malformedPacket ∨ e.kind = .malformedArgument) ∧
      (bytes.length % 4 = 0 → bytes.head? = some 35 → e.kind = .malformedBundle ∨ e = .nestingTooDeep 32) ∧
      e.kind ∉ [.unsupportedType, .invalidPattern, .payloadTooLarge] ∧ e.isDecodeError = true ∧
      ∀ (s : AddressSpace) (peer : String), (s.deliver bytes).dispatch = ⟨s, [], 0, .finished⟩ ∧
        (s.deliver bytes).log.map (fun w => (w.level, w.line peer)) =
          [(.warn, "Dropping malformed packet from " ++ peer ++ s!" ({bytes.length} bytes): " ++ e.message)]) ∧
    ∀ (s : AddressSpace) (e : Error), .failed e ∉ (s.deliver bytes).log := by
  refine ⟨fun n => decode_eq_invalidFraming_iff, fun first => decode_eq_unrecognizedPacket_iff, ?_,
    fun s e => s.deliver_never_failed bytes e⟩
  intro e failed
  have failure := failure_of_decode failed
  refine ⟨failure.of_slash, failure.of_hash, failure.kind_not_mem, failure.isDecodeError, fun s peer => ?_⟩
  rw [AddressSpace.deliver_malformed failed]
  exact ⟨rfl, rfl⟩

-- A tag that names no type is a malformed argument of the message.
example : Packet.decode [47, 0, 0, 0, 44, 120, 0, 0] = .error (.argument 0 'x' .unsupportedTag) := by
  rfl

/-- The handlers that a delivery called itself, and the messages that they were called on. -/
def Delivery.calls (d : Delivery) : List (Method × Message) := d.dispatch.invocations.map fun i => (i.method, i.message)

namespace AddressSpace

/-- The calls that received bytes call for: if they are a message, one on it for each method that matches, in order. -/
def callsFor (methods : List Method) (bytes : List UInt8) : List (Method × Message) :=
  match Packet.decode bytes with
  | .ok (.message m) => (matching methods m.address).map fun t => (t, m)
  | .ok (.bundle ..) | .error _ => []

/-- The log lines that received bytes from a peer call for, with their levels. -/
def linesFor (methods : List Method) (peer : String) (bytes : List UInt8) : List (LogLevel × String) :=
  match Packet.decode bytes with
  | .ok (.message m) =>
    if matching methods m.address = [] then
      [(.debug, "No method matches " ++ m.address ++ " (from " ++ peer ++ ")")]
    else []
  | .ok (.bundle _ elements) =>
    [(.warn, s!"Dropping bundle with {elements.length} element(s) from " ++ peer ++ ": bundles are not dispatched")]
  | .error e => [(.warn, "Dropping malformed packet from " ++ peer ++ s!" ({bytes.length} bytes): " ++ e.message)]

/-- A delivery with just the effects that the registered methods and the received bytes call for. -/
structure IsDelivery (methods : List Method) (bytes : List UInt8) (d : Delivery) : Prop where
  ending : d.dispatch.ending = .finished
  registry : d.dispatch.space.methods = methods
  calls : d.calls = callsFor methods bytes
  notes : d.dispatch.notes = (callsFor methods bytes).map fun (t, m) => called m t
  count : d.dispatch.count = (callsFor methods bytes).length
  lines : ∀ peer, d.log.map (fun w => (w.level, w.line peer)) = linesFor methods peer bytes

theorem Covers.calls {methods : List Method} {m : Message} {is : List Invocation} {count : Nat}
    (covers : Covers methods m is count) :
    is.map (fun i => (i.method, i.message)) = (matching methods m.address).map fun t => (t, m) := by
  rw [← covers.invoked, List.map_map]
  refine List.map_congr_left fun i member => ?_
  rw [Function.comp_apply, (covers.runs i member).message]

private theorem drop_isDelivery {methods : List Method} {bytes : List UInt8} {s : AddressSpace} {w : Dropped}
    (registry : s.methods = methods) (none : callsFor methods bytes = [])
    (line : ∀ peer, linesFor methods peer bytes = [(w.level, w.line peer)]) :
    IsDelivery methods bytes (s.drop w) where
  ending := rfl
  registry := registry
  calls := by rw [none]; rfl
  notes := by rw [none]; rfl
  count := by rw [none]; rfl
  lines := fun peer => (line peer).symm

theorem deliver_isDelivery {s : AddressSpace} (records : s.OnlyRecords) (bytes : List UInt8) :
    IsDelivery s.methods bytes (s.deliver bytes) := by
  cases decoded : Packet.decode bytes with
  | error e =>
    rw [deliver_malformed decoded]
    exact drop_isDelivery rfl (by simp only [callsFor, decoded]) fun peer => by simp only [linesFor, decoded]; rfl
  | ok p =>
    cases p with
    | bundle t ps =>
      rw [deliver_bundle decoded]
      exact drop_isDelivery rfl (by simp only [callsFor, decoded]) fun peer => by simp only [linesFor, decoded]; rfl
    | message m =>
      obtain ⟨ending, methods, notes, covers⟩ := dispatch_recording records m
      have calls : callsFor s.methods bytes = (matching s.methods m.address).map fun t => (t, m) := by
        simp only [callsFor, decoded]
      simp only [deliver, decoded]
      refine ⟨ending, methods, ?_, ?_, ?_, fun peer => ?_⟩
      · rw [calls, Delivery.calls, covers.calls]
      · rw [calls, List.map_map, notes]
        rfl
      · rw [calls, List.length_map, covers.counted]
      · simp only [linesFor, decoded, ending, true_and, covers.counted, List.length_eq_zero_iff]
        split <;> rfl

theorem deliverAll_cons (s : AddressSpace) (bytes : List UInt8) (packets : List (List UInt8)) :
    s.deliverAll (bytes :: packets) = (((s.deliver bytes).dispatch.space.deliverAll packets).1,
      s.deliver bytes :: ((s.deliver bytes).dispatch.space.deliverAll packets).2) := rfl

theorem deliverAll_isDelivery {s : AddressSpace} (records : s.OnlyRecords) (packets : List (List UInt8)) :
    (s.deliverAll packets).1.methods = s.methods ∧
      List.Forall₂ (IsDelivery s.methods) packets (s.deliverAll packets).2 := by
  induction packets generalizing s with
  | nil => exact ⟨rfl, .nil⟩
  | cons bytes packets ih =>
    have first := deliver_isDelivery records bytes
    have kept : (s.deliver bytes).dispatch.space.OnlyRecords := by
      rw [OnlyRecords, first.registry]
      exact records
    obtain ⟨methods, others⟩ := ih kept
    rw [first.registry] at methods others
    exact ⟨methods, .cons first others⟩

theorem flatMap_calls {methods : List Method} {packets : List (List UInt8)} {ds : List Delivery}
    (each : List.Forall₂ (IsDelivery methods) packets ds) :
    ds.flatMap Delivery.calls = packets.flatMap (callsFor methods) ∧
      ds.flatMap (·.dispatch.notes) = (packets.flatMap (callsFor methods)).map fun (t, m) => called m t := by
  induction each with
  | nil => exact ⟨rfl, rfl⟩
  | cons first _ ih =>
    obtain ⟨calls, notes⟩ := ih
    simp only [List.flatMap_cons, List.map_append, first.calls, first.notes, calls, notes, and_self]

/-- The deliveries of packets that are marked to be kept. -/
def keptDeliveries (marked : List (List UInt8 × Bool)) (ds : List Delivery) : List Delivery :=
  ((marked.zip ds).filter (·.1.2)).map (·.2)

/-- Packets that are no message can be left out without a change to the deliveries of the others or to the space after
    them, whatever handlers do. -/
theorem deliverAll_kept (s : AddressSpace) (marked : List (List UInt8 × Bool))
    (dropped : ∀ x ∈ marked, x.2 = false → ¬IsMessage x.1) :
    s.deliverAll ((marked.filter (·.2)).map (·.1)) =
      ((s.deliverAll (marked.map (·.1))).1, keptDeliveries marked (s.deliverAll (marked.map (·.1))).2) := by
  induction marked generalizing s with
  | nil => rfl
  | cons x marked ih =>
    obtain ⟨first, others⟩ := List.forall_mem_cons.mp dropped
    obtain ⟨bytes, keep⟩ := x
    cases keep with
    | true => exact congrArg (fun r => (r.1, s.deliver bytes :: r.2)) (ih (s.deliver bytes).dispatch.space others)
    | false =>
      have same : (s.deliver bytes).dispatch.space = s := by rw [deliver_dropped (first rfl)]
      have rest := ih s others
      rw [List.map_cons, deliverAll_cons, same]
      exact rest

/-- With handlers that only record, packets delivered one after another call exactly the methods that match, on the
    messages among the packets, in order; each is counted and logged by its own bytes and the registered methods alone,
    which stay as they are. Packets that are no message have no effect but their own log line: whichever of them are left
    out, the deliveries of all other packets and the space after them stay the same. -/
theorem deliverAll_recording (s : AddressSpace) (records : s.OnlyRecords) (packets : List (List UInt8)) :
    (s.deliverAll packets).1.methods = s.methods ∧
    List.Forall₂ (IsDelivery s.methods) packets (s.deliverAll packets).2 ∧
    (s.deliverAll packets).2.flatMap Delivery.calls = packets.flatMap (callsFor s.methods) ∧
    (s.deliverAll packets).2.flatMap (·.dispatch.notes) =
      (packets.flatMap (callsFor s.methods)).map (fun (t, m) => called m t) ∧
    (∀ bytes ∈ packets, ¬IsMessage bytes → ∀ s', (deliver s' bytes).dispatch = ⟨s', [], 0, .finished⟩) ∧
    ∀ marked : List (List UInt8 × Bool), marked.map (·.1) = packets →
      (∀ x ∈ marked, x.2 = false → ¬IsMessage x.1) →
      s.deliverAll ((marked.filter (·.2)).map (·.1)) =
        ((s.deliverAll packets).1, keptDeliveries marked (s.deliverAll packets).2) := by
  obtain ⟨methods, each⟩ := deliverAll_isDelivery records packets
  obtain ⟨calls, notes⟩ := flatMap_calls each
  refine ⟨methods, each, calls, notes, fun bytes _ other s' => deliver_dropped other s', ?_⟩
  rintro marked rfl dropped
  exact s.deliverAll_kept marked dropped

/-- A handler that counts its runs, and a message between bytes that are no packet and an empty bundle: one call, and
    the same delivery without the others. -/
theorem deliverAll_recording_counter :
    let counter : Method := ⟨.exact "/a", ⟨"counter", [.remember fun now => 0 :: now.memory]⟩⟩
    let s : AddressSpace := ⟨[counter], []⟩
    let m : List UInt8 := [47, 97, 0, 0, 44, 0, 0, 0]
    let bundle : List UInt8 := bundleHeader ++ bigEndian 8 1
    s.OnlyRecords ∧ (s.deliverAll [[63], m, bundle]).2.flatMap Delivery.calls = [(counter, ⟨"/a", []⟩)] ∧
      s.deliverAll [m] =
        ((s.deliverAll [[63], m, bundle]).1, keptDeliveries [([63], false), (m, true), (bundle, false)]
          (s.deliverAll [[63], m, bundle]).2) := by
  intro counter s m bundle
  have records : s.OnlyRecords := by
    intro t here a does
    rw [List.mem_singleton.mp here] at does
    rw [List.mem_singleton.mp does]
    exact .remember _
  have junk : Packet.decode [63] = .error (.invalidFraming 1) := by rfl
  have message : Packet.decode m = .ok (.message ⟨"/a", []⟩) :=
    Packet.decode_of_encode (by rfl) (by decide +kernel) (by decide +kernel) (by decide +kernel)
  have empty : Packet.decode bundle = .ok (.bundle .immediate []) :=
    Packet.decode_of_encode (by rfl) (by decide +kernel) (by decide +kernel) (by decide +kernel)
  obtain ⟨-, -, calls, -, -, kept⟩ := deliverAll_recording s records [[63], m, bundle]
  refine ⟨records, ?_, kept [([63], false), (m, true), (bundle, false)] rfl ?_⟩
  · rw [calls]
    simp only [List.flatMap_cons, List.flatMap_nil, callsFor, junk, message, empty]
    rfl
  · simp [IsMessage, junk, empty]

end AddressSpace

end OpenSound
