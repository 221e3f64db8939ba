import OpenSound.Proofs.Transport.Serving
import OpenSound.Proofs.Wire.Prefixes
import OpenSound.Transport.Client

/-!
# Sending to a server

A client sends a packet if it can be encoded and is not too large, and otherwise sends nothing. Sent packets that are
messages with an address behind a slash reach the handlers of a server as they are, and no other packet reaches any:
bundles and other messages are decoded as what they are or not at all, and no message is decoded from a beginning of
one that is not all of it.
-/

namespace OpenSound

open Wire AddressSpace

/-- The message that a packet is, if its address begins with a slash. -/
def Packet.addressed? : Packet → Option Message
  | message m => if m.address.toList.head? = some '/' then some m else none
  | bundle .. => none

private theorem Packet.addressed?_eq_some {p : Packet} {m : Message} (found : p.addressed? = some m) :
    p = message m ∧ m.address.toList.head? = some '/' := by
  cases p with
  | bundle t ps => cases found
  | message n =>
    rw [addressed?] at found
    split_ifs at found with slash
    cases found
    exact ⟨rfl, slash⟩

/-- A beginning of an encoded packet is only decoded as a message if it is all of it, and the packet is that message. -/
theorem Packet.eq_of_isMessage_prefix {p : Packet} {bytes front : List UInt8} (encoded : p.encode = .ok bytes)
    (canonical : p.IsCanonical) (before : front <+: bytes) (isMessage : IsMessage front) :
    front = bytes ∧ ∃ m, p.addressed? = some m := by
  obtain ⟨writable, rfl⟩ := Packet.encode_iff.mp encoded
  obtain ⟨n, decoded⟩ := isMessage
  have derives := (decodeWithin_iff.mp decoded).1
  -- what begins as a message does begins with a slash, which no bundle does
  have slash : p.wire.head? = some 47 := (derives.head?_of_prefix before).trans derives.head?_message
  cases p with
  | bundle t ps => simp [Packet.wire, bundleHeader] at slash
  | message m =>
    have form : StringForm m.address (stringBytes m.address) := stringForm_iff.mpr ⟨writable.1.2, rfl⟩
    have addressed : m.address.toList.head? = some '/' := (form.head?_iff _).mp slash
    have whole := (message m).wire_derives writable (List.forall_mem_singleton.mpr addressed) canonical
    refine ⟨?_, m, if_pos addressed⟩
    by_contra strict
    exact Packet.not_derives_prefix_of_message whole before strict _ derives

private theorem callsFor_of_not_isMessage {bytes : List UInt8} (other : ¬IsMessage bytes) (methods : List Method) :
    callsFor methods bytes = [] := by
  unfold callsFor
  split
  · rename_i m decoded
    exact absurd ⟨m, decoded⟩ other
  · rfl
  · rfl

/-- The calls that a message calls for. -/
def callsOn (methods : List Method) (m : Message) : List (Method × Message) :=
  (matching methods m.address).map fun t => (t, m)

private theorem callsFor_encode {p : Packet} {bytes : List UInt8} (encoded : p.encode = .ok bytes)
    (canonical : p.IsCanonical)
    (methods : List Method) : callsFor methods bytes = p.addressed?.toList.flatMap (callsOn methods) := by
  cases found : p.addressed? with
  | none =>
    refine callsFor_of_not_isMessage (fun isMessage => ?_) methods
    obtain ⟨-, m, some⟩ := Packet.eq_of_isMessage_prefix encoded canonical List.prefix_rfl isMessage
    cases found.symm.trans some
  | some m =>
    obtain ⟨rfl, slash⟩ := Packet.addressed?_eq_some found
    have decoded := Packet.decode_of_encode encoded (List.forall_mem_singleton.mpr slash) canonical (Nat.zero_le _)
    simp [callsFor, decoded, callsOn]

private theorem callsFor_encodings {ps : List Packet} {encodings : List (List UInt8)}
    (encoded : List.Forall₂ (fun p bytes => p.encode = .ok bytes) ps encodings) (canonical : ∀ p ∈ ps, p.IsCanonical)
    (methods : List Method) :
    encodings.flatMap (callsFor methods) = (ps.filterMap Packet.addressed?).flatMap (callsOn methods) := by
  rw [List.filterMap_eq_flatMap_toList, List.flatMap_assoc]
  induction encoded with
  | nil => rfl
  | cons first _ ih =>
    obtain ⟨own, others⟩ := List.forall_mem_cons.mp canonical
    rw [List.flatMap_cons, List.flatMap_cons, callsFor_encode first own, ih others]

/-- What a client of a limit answers for a packet when its transport carries at most a number of bytes: it sends just
    the packets that can be encoded and are small enough for both, and each of its errors has its own reason. -/
structure IsAnswer {α : Type} (max most : Nat) (sent : List UInt8 → α) (p : Packet) (r : Except TransportError α) :
    Prop where
  ok_iff : ∀ a, r = .ok a ↔ ∃ bytes, p.encode = .ok bytes ∧ bytes.length ≤ max ∧ bytes.length ≤ most ∧ a = sent bytes
  codec_iff : ∀ e, r = .error (.codec e) ↔ p.encode = .error e
  tooLarge_iff : ∀ size limit, r = .error (.packetTooLarge size limit) ↔
    ∃ bytes, p.encode = .ok bytes ∧ max < bytes.length ∧ size = bytes.length ∧ limit = max
  refused_iff : (∃ fault, r = .error (.sendFailed fault)) ↔
    ∃ bytes, p.encode = .ok bytes ∧ bytes.length ≤ max ∧ most < bytes.length

section Answers

variable {α : Type} {max most : Nat} {sent : List UInt8 → α} {p : Packet} {bytes : List UInt8}

private theorem isAnswer_codec {e : Error} (failed : p.encode = .error e) :
    IsAnswer max most sent p (.error (.codec e)) := by
  constructor <;> simp [failed]

private theorem isAnswer_tooLarge (encoded : p.encode = .ok bytes) (large : max < bytes.length) :
    IsAnswer max most sent p (.error (.packetTooLarge bytes.length max)) := by
  constructor <;> simp [encoded, large, eq_comm]

private theorem isAnswer_ok (encoded : p.encode = .ok bytes) (small : bytes.length ≤ max)
    (carried : bytes.length ≤ most) :
    IsAnswer max most sent p (.ok (sent bytes)) := by
  constructor <;> simp [encoded, small, carried, eq_comm]

private theorem isAnswer_refused (encoded : p.encode = .ok bytes) (small : bytes.length ≤ max)
    (large : most < bytes.length)
    (fault : NetworkFault) : IsAnswer max most sent p (.error (.sendFailed fault)) := by
  constructor <;> simp [encoded, small, large, eq_comm]

end Answers

/-- The packets whose sending succeeded, given what was answered for each. -/
def succeeded {α : Type} (ps : List Packet) (rs : List (Except TransportError α)) : List Packet :=
  ((ps.zip rs).filter fun x => x.2.isOk).map (·.1)

private theorem mem_of_mem_succeeded {α : Type} {ps : List Packet} {rs : List (Except TransportError α)} {p : Packet}
    (sent : p ∈ succeeded ps rs) : p ∈ ps := by
  obtain ⟨⟨q, r⟩, kept, rfl⟩ := List.mem_map.mp sent
  exact (List.of_mem_zip (List.mem_of_mem_filter kept)).1

private theorem outgoing_codec {max : Nat} {p : Packet} {e : Error} (failed : p.encode = .error e) :
    outgoing max p = .error (.codec e) := by
  simp only [outgoing, failed]

private theorem outgoing_tooLarge {max : Nat} {p : Packet} {bytes : List UInt8} (encoded : p.encode = .ok bytes)
    (large : max < bytes.length) : outgoing max p = .error (.packetTooLarge bytes.length max) := by
  simp only [outgoing, encoded, if_pos large]

private theorem outgoing_ok {max : Nat} {p : Packet} {bytes : List UInt8} (encoded : p.encode = .ok bytes)
    (small : bytes.length ≤ max) : outgoing max p = .ok bytes := by
  simp only [outgoing, encoded, if_neg (Nat.not_lt_of_le small)]

namespace StreamClient

variable {c : StreamClient}

private theorem sendOver_of_error (connected : c.isConnected) {p : Packet} {e : TransportError}
    (refused : outgoing c.maxPacket p = .error e) (wire : Sink) : c.sendOver wire p = (.error e, wire) := by
  simp only [sendOver, if_pos connected, refused]

/-- A connected client puts the whole frame of a packet on the connection, or nothing at all. -/
theorem sendOver_spec (connected : c.isConnected) (p : Packet) (held : List UInt8) :
    IsAnswer c.maxPacket (UInt32.size - 1) (fun _ => ()) p (c.sendOver ⟨held, none⟩ p).1 ∧
      ((∃ bytes, p.encode = .ok bytes ∧ Fits c.maxPacket bytes ∧
          c.sendOver ⟨held, none⟩ p = (.ok (), ⟨held ++ frame bytes, none⟩)) ∨
        ∃ e, c.sendOver ⟨held, none⟩ p = (.error e, ⟨held, none⟩)) := by
  cases encoded : p.encode with
  | error e =>
    have same := sendOver_of_error connected (outgoing_codec encoded) ⟨held, none⟩
    exact ⟨same ▸ isAnswer_codec encoded, .inr ⟨_, same⟩⟩
  | ok bytes =>
    by_cases large : c.maxPacket < bytes.length
    · have same := sendOver_of_error connected (outgoing_tooLarge encoded large) ⟨held, none⟩
      exact ⟨same ▸ isAnswer_tooLarge encoded large, .inr ⟨_, same⟩⟩
    have small : bytes.length ≤ c.maxPacket := Nat.le_of_not_lt large
    by_cases framed : bytes.length < UInt32.size
    · have same : c.sendOver ⟨held, none⟩ p = (.ok (), ⟨held ++ frame bytes, none⟩) := by
        simp only [sendOver, if_pos connected, outgoing_ok encoded small, writeFrame_fits framed]
      refine ⟨?_, .inl ⟨bytes, rfl, ⟨small, framed⟩, same⟩⟩
      exact same ▸ isAnswer_ok encoded small (Nat.le_sub_one_of_lt framed)
    · -- the packet is within the limit, but its length does not fit in front of it
      have unframed : UInt32.size ≤ bytes.length := Nat.le_of_not_lt framed
      have same : c.sendOver ⟨held, none⟩ p =
          (.error (.sendFailed (.other (TransportError.packetTooLarge bytes.length (UInt32.size - 1)).message)),
            ⟨held, none⟩) := by
        simp only [sendOver, if_pos connected, outgoing_ok encoded small, writeFrame, if_pos unframed]
      refine ⟨?_, .inr ⟨_, same⟩⟩
      exact same ▸ isAnswer_refused encoded small (Nat.lt_of_lt_of_le (by decide) unframed) _

/-- What was sent of some packets stands on the connection frame by frame. -/
theorem sendAll_spec (connected : c.isConnected) (ps : List Packet) (held : List UInt8) :
    List.Forall₂ (IsAnswer c.maxPacket (UInt32.size - 1) fun _ => ()) ps (c.sendAll ⟨held, none⟩ ps).1 ∧
      ∃ encodings, List.Forall₂ (fun p bytes => p.encode = .ok bytes) (succeeded ps (c.sendAll ⟨held, none⟩ ps).1)
          encodings ∧
        (∀ bytes ∈ encodings, Fits c.maxPacket bytes) ∧
        (c.sendAll ⟨held, none⟩ ps).2 = ⟨held ++ encodings.flatMap frame, none⟩ := by
  induction ps generalizing held with
  | nil => exact ⟨.nil, [], .nil, by simp, by simp [sendAll]⟩
  | cons p ps ih =>
    obtain ⟨answer, ⟨bytes, encoded, fits, sent⟩ | ⟨e, failed⟩⟩ := sendOver_spec connected p held
    · obtain ⟨answers, encodings, each, small, wire⟩ := ih (held ++ frame bytes)
      rw [sent] at answer
      simp only [sendAll, sent]
      refine ⟨.cons answer answers, bytes :: encodings, ?_, List.forall_mem_cons.mpr ⟨fits, small⟩, ?_⟩
      · exact .cons encoded each
      · rw [wire, List.flatMap_cons, List.append_assoc]
    · obtain ⟨answers, encodings, each, small, wire⟩ := ih held
      rw [failed] at answer
      simp only [sendAll, failed]
      exact ⟨.cons answer answers, encodings, each, small, wire⟩

/-- Of packets with canonical time tags that a connected client sends to a server with handlers that only record and
    a limit that is not smaller, exactly the encodings of the packets whose sending succeeds reach the server, in order
    and however the bytes arrive. So it calls for exactly the messages with addresses behind slashes among these packets,
    on themselves, floats bit for bit. Sending succeeds exactly for packets that can be encoded in at most the client's
    limit and that a frame can hold, which every size up to a limit below 2^32 is; a packet that cannot be encoded, one
    that is too large, and one that no frame can hold each fail with their own error and put nothing on the
    connection. -/
theorem sendAll_serveConnection (c : StreamClient) (s : Server) (ps : List Packet) (connected : c.isConnected)
    (limits : c.maxPacket ≤ s.maxPacket) (records : s.space.OnlyRecords) (canonical : ∀ p ∈ ps, p.IsCanonical) :
    List.Forall₂ (IsAnswer c.maxPacket (UInt32.size - 1) fun _ => ()) ps (c.sendAll ⟨[], none⟩ ps).1 ∧
    (∀ p held e, (c.sendOver ⟨held, none⟩ p).1 = .error e → (c.sendOver ⟨held, none⟩ p).2.held = held) ∧
    ∃ encodings,
      List.Forall₂ (fun p bytes => p.encode = .ok bytes) (succeeded ps (c.sendAll ⟨[], none⟩ ps).1) encodings ∧
      (c.sendAll ⟨[], none⟩ ps).2.held = encodings.flatMap frame ∧
      ∀ arriving : Stream, arriving.reach = (c.sendAll ⟨[], none⟩ ps).2.held →
        s.DeliversOf arriving encodings ∧
        (s.serveConnection arriving).2.flatMap Delivery.calls =
          ((succeeded ps (c.sendAll ⟨[], none⟩ ps).1).filterMap Packet.addressed?).flatMap
            (callsOn s.space.methods) := by
  obtain ⟨answers, encodings, each, fits, wire⟩ := sendAll_spec connected ps []
  refine ⟨answers, fun p held e failed => ?_, encodings, each, congrArg Sink.held wire, fun arriving arrives => ?_⟩
  · obtain ⟨-, ⟨bytes, -, -, sent⟩ | ⟨e', same⟩⟩ := sendOver_spec connected p held
    · rw [sent] at failed
      cases failed
    · rw [same]
  · have small : ∀ bytes ∈ encodings, Fits s.maxPacket bytes := fun bytes member =>
      ⟨(fits bytes member).1.trans limits, (fits bytes member).2⟩
    have run : IsLongestRun s.maxPacket arriving.reach encodings := by
      rw [arrives, wire]
      exact .whole small
    have delivers := Server.deliversOf_run records run
    refine ⟨delivers, ?_⟩
    rw [delivers, (flatMap_calls (deliverAll_isDelivery records encodings).2).1]
    exact callsFor_encodings each (fun p sent => canonical p (mem_of_mem_succeeded sent)) _

/-- Between packets that are sent and call for nothing, one that cannot be encoded and one that is too large. -/
theorem sendAll_serveConnection_mixed :
    let counter : Method := ⟨.exact "/a", ⟨"counter", [.remember fun now => 0 :: now.memory]⟩⟩
    let s : Server := ⟨20, ⟨[counter], []⟩⟩
    let c : StreamClient := ⟨16, .empty, .opened⟩
    let m : Message := ⟨"/a", [.float32 0x7fc00001]⟩
    let ps : List Packet := [.message m, .message ⟨"/\x00", []⟩, .message ⟨"/a", [.string "twelve bytes"]⟩,
      .bundle .immediate [], .message ⟨"b", []⟩, .message m]
    (c.sendAll ⟨[], none⟩ ps).1.map (·.isOk) = [true, false, false, true, true, true] ∧
      (s.serveConnection [.bytes (c.sendAll ⟨[], none⟩ ps).2.held]).2.flatMap Delivery.calls =
        [(counter, m), (counter, m)] := by
  intro counter s c m ps
  have records : s.space.OnlyRecords := onlyRecords_remember _ _ _ _
  obtain ⟨-, -, encodings, -, -, served⟩ :=
    sendAll_serveConnection c s ps (by decide) (by decide) records (by decide +kernel)
  have sent : (succeeded ps (c.sendAll ⟨[], none⟩ ps).1).filterMap Packet.addressed? = [m, m] := by decide +kernel
  refine ⟨by decide +kernel, ?_⟩
  rw [(served _ (Stream.reach_bytes _)).2, sent]
  rfl

/-- Sending as it is documented: it succeeds for just the packets that can be encoded in at most the client's limit, and
    fails for any other with the error of the encoder or with the size, and with nothing put on the connection. -/
structure SendsAsDocumented (c : StreamClient) (p : Packet) (held : List UInt8) : Prop where
  ok_iff : (c.sendOver ⟨held, none⟩ p).1 = .ok () ↔ ∃ bytes, p.encode = .ok bytes ∧ bytes.length ≤ c.maxPacket
  codec : ∀ e, p.encode = .error e → c.sendOver ⟨held, none⟩ p = (.error (.codec e), ⟨held, none⟩)
  tooLarge : ∀ bytes, p.encode = .ok bytes → c.maxPacket < bytes.length →
    c.sendOver ⟨held, none⟩ p = (.error (.packetTooLarge bytes.length c.maxPacket), ⟨held, none⟩)

/-- A packet is sent as documented unless it is within the limit and too long for a frame. -/
theorem sendsAsDocumented_iff (connected : c.isConnected) {p : Packet} {held : List UInt8} :
    c.SendsAsDocumented p held ↔
      ∀ bytes, p.encode = .ok bytes → bytes.length ≤ c.maxPacket → bytes.length < UInt32.size := by
  obtain ⟨answer, -⟩ := sendOver_spec connected p held
  constructor
  · intro documented bytes encoded small
    obtain ⟨bytes', encoded', -, framed, -⟩ :=
      (answer.ok_iff ()).mp (documented.ok_iff.mpr ⟨bytes, encoded, small⟩)
    cases encoded.symm.trans encoded'
    exact Nat.lt_of_le_pred (by decide) framed
  · intro framed
    refine ⟨(answer.ok_iff ()).trans ?_, fun e failed => sendOver_of_error connected (outgoing_codec failed) _,
      fun bytes encoded large => sendOver_of_error connected (outgoing_tooLarge encoded large) _⟩
    constructor
    · rintro ⟨bytes, encoded, small, -, -⟩
      exact ⟨bytes, encoded, small⟩
    · rintro ⟨bytes, encoded, small⟩
      exact ⟨bytes, encoded, small, Nat.le_pred_of_lt (framed bytes encoded small), rfl⟩

/-- Two blobs of the largest size, and what stands around them. -/
private theorem encode_blobs {data : List UInt8} (full : data.length = maxBlob) :
    ∃ bytes, (Packet.message ⟨"/a", [.blob data, .blob data]⟩).encode = .ok bytes ∧
      bytes.length = UInt32.size + 16 := by
  have tags : (⟨"/a", [.blob data, .blob data]⟩ : Message).tags = ",bb" := rfl
  have writable : (⟨"/a", [.blob data, .blob data]⟩ : Message).IsWritable := by
    have address : IsWritableString "/a" := ⟨by decide, by decide⟩
    have types : IsWritableString ",bb" := ⟨by decide, by decide⟩
    exact ⟨address, tags ▸ types, by simp [Argument.IsWritable, full]⟩
  refine ⟨_, Packet.encode_iff.mpr ⟨writable, rfl⟩, ?_⟩
  have address : (stringBytes "/a").length = 4 := by decide
  have types : (stringBytes ",bb").length = 4 := by decide
  have filling : (padding maxBlob).length = 1 := by decide
  simp only [Packet.wire, Message.wire, tags, List.flatMap_cons, List.flatMap_nil, Argument.wire, List.length_append,
    bigEndian_length, full, address, types, filling, List.length_nil]
  decide

/-- A limit above what a frame can hold, and a packet between the two: it is not sent. -/
theorem not_sendsAsDocumented_blobs :
    let data : List UInt8 := List.replicate maxBlob 0
    let p : Packet := .message ⟨"/a", [.blob data, .blob data]⟩
    let c : StreamClient := ⟨2 * UInt32.size, .empty, .opened⟩
    c.isConnected ∧ p.IsCanonical ∧ (∃ bytes, p.encode = .ok bytes ∧ bytes.length = UInt32.size + 16) ∧
      (∃ fault, c.sendOver ⟨[], none⟩ p = (.error (.sendFailed fault), ⟨[], none⟩)) ∧ ¬c.SendsAsDocumented p [] := by
  intro data p c
  have connected : c.isConnected := rfl
  obtain ⟨bytes, encoded, length⟩ := encode_blobs (List.length_replicate (n := maxBlob) (a := (0 : UInt8)))
  have small : bytes.length ≤ c.maxPacket := by rw [length]; decide
  have long : UInt32.size ≤ bytes.length := by rw [length]; exact Nat.le_add_right ..
  refine ⟨connected, ?_, ⟨bytes, encoded, length⟩, ?_, fun documented => ?_⟩
  · simp [p, Packet.IsCanonical, Packet.timeTags, Message.timeTags, Argument.timeTag?]
  · obtain ⟨answer, ⟨bytes', encoded', fits, -⟩ | ⟨e, same⟩⟩ := sendOver_spec connected p []
    · cases encoded.symm.trans encoded'
      exact absurd fits.2 (Nat.not_lt_of_le long)
    · obtain ⟨fault, refused⟩ := answer.refused_iff.mpr
        ⟨bytes, encoded, small, Nat.lt_of_lt_of_le (by decide) long⟩
      rw [same] at refused
      obtain rfl : e = .sendFailed fault := Except.error.inj refused
      exact ⟨fault, same⟩
  · exact absurd ((sendsAsDocumented_iff connected).mp documented bytes encoded small) (Nat.not_lt_of_le long)

end StreamClient

/-! ## In datagrams -/

namespace DatagramClient

variable {c : DatagramClient}

private theorem send_isAnswer (connected : c.isConnected) (p : Packet) :
    IsAnswer c.maxPacket maxDatagram id p (c.send p) := by
  cases encoded : p.encode with
  | error e =>
    have same : c.send p = .error (.codec e) := by
      rw [send, if_pos connected, outgoing_codec encoded]
    exact same ▸ isAnswer_codec encoded
  | ok bytes =>
    by_cases large : c.maxPacket < bytes.length
    · have same : c.send p = .error (.packetTooLarge bytes.length c.maxPacket) := by
        rw [send, if_pos connected, outgoing_tooLarge encoded large]
      exact same ▸ isAnswer_tooLarge encoded large
    have small : bytes.length ≤ c.maxPacket := Nat.le_of_not_lt large
    by_cases long : maxDatagram < bytes.length
    · have same : c.send p = .error (.sendFailed .tooLong) := by
        simp only [send, if_pos connected, outgoing_ok encoded small, if_pos long]
      exact same ▸ isAnswer_refused encoded small long _
    · have same : c.send p = .ok bytes := by
        simp only [send, if_pos connected, outgoing_ok encoded small, if_neg long]
      exact same ▸ isAnswer_ok encoded small (Nat.le_of_not_lt long)

/-- The packets of some that are sent, each with its datagram. -/
def sent (c : DatagramClient) (ps : List Packet) : List (Packet × List UInt8) :=
  ps.filterMap fun p => (c.send p).toOption.map fun datagram => (p, datagram)

private theorem of_mem_sent (connected : c.isConnected) {ps : List Packet} {p : Packet} {datagram : List UInt8}
    (sent : (p, datagram) ∈ c.sent ps) : p ∈ ps ∧ p.encode = .ok datagram := by
  obtain ⟨q, member, made⟩ := List.mem_filterMap.mp sent
  cases answer : c.send q with
  | error e => simp [answer, Except.toOption] at made
  | ok bytes =>
    rw [answer] at made
    cases made
    obtain ⟨bytes', encoded, -, -, rfl⟩ := ((send_isAnswer connected p).ok_iff _).mp answer
    exact ⟨member, encoded⟩

end DatagramClient

/-- A beginning of an encoded packet that is not all of it invokes nobody, and neither does a packet that is no message
    with an address behind a slash, nor a beginning of it. -/
theorem Packet.not_isMessage_take {p : Packet} {bytes : List UInt8} (encoded : p.encode = .ok bytes)
    (canonical : p.IsCanonical) {n : Nat} (cut : n < bytes.length ∨ p.addressed? = none) :
    ¬IsMessage (bytes.take n) := by
  intro isMessage
  obtain ⟨whole, m, found⟩ := Packet.eq_of_isMessage_prefix encoded canonical (List.take_prefix n bytes) isMessage
  rcases cut with short | none
  · have length := congrArg List.length whole
    rw [List.length_take_of_le short.le] at length
    exact absurd length short.ne
  · cases none.symm.trans found

private theorem callsFor_take {p : Packet} {bytes : List UInt8} (encoded : p.encode = .ok bytes)
    (canonical : p.IsCanonical)
    (methods : List Method) (n : Nat) : callsFor methods (bytes.take n) =
      if bytes.length ≤ n then p.addressed?.toList.flatMap (callsOn methods) else [] := by
  split
  · rename_i whole
    rw [List.take_of_length_le whole, callsFor_encode encoded canonical]
  · rename_i cut
    exact callsFor_of_not_isMessage (Packet.not_isMessage_take encoded canonical (.inl (Nat.lt_of_not_le cut))) methods

/-- Packets with canonical time tags go from a connected client to a server with handlers that only record. No datagram
    is sent for a packet that cannot be encoded or is larger than the client's limit; such a packet fails with its own
    error. Where every datagram that is sent arrives once, in whatever order, and is cut to the receive buffer, the
    server calls for exactly the messages with addresses behind slashes whose encodings fit into the buffer, on
    themselves, each while it handles the datagram of that message. And cut anywhere short of its end, an encoded packet
    is dropped without an effect, whatever handlers there are; so is, whole or cut, a bundle or a message with another
    address. -/
theorem DatagramClient.sent_serveDatagrams (c : DatagramClient) (s : Server) (ps : List Packet)
    (connected : c.isConnected) (records : s.space.OnlyRecords) (canonical : ∀ p ∈ ps, p.IsCanonical) :
    (∀ p, IsAnswer c.maxPacket maxDatagram id p (c.send p)) ∧
    (∀ arrived : List (Packet × List UInt8), arrived.Perm (c.sent ps) →
      List.Forall₂ (fun x d => d.calls = if x.2.length ≤ min s.maxPacket maxDatagram then
          x.1.addressed?.toList.flatMap (callsOn s.space.methods) else [])
        arrived (s.serveDatagrams (arrived.map (·.2))).2 ∧
      (s.serveDatagrams (arrived.map (·.2))).2.flatMap Delivery.calls =
        ((arrived.filter fun x => x.2.length ≤ min s.maxPacket maxDatagram).filterMap (·.1.addressed?)).flatMap
          (callsOn s.space.methods)) ∧
    ∀ p ∈ ps, ∀ bytes, p.encode = .ok bytes → ∀ n, n < bytes.length ∨ p.addressed? = none →
      ∀ space : AddressSpace, (space.deliver (bytes.take n)).dispatch = ⟨space, [], 0, .finished⟩ := by
  refine ⟨send_isAnswer connected, fun arrived order => ?_, fun p member bytes encoded n cut space => ?_⟩
  · have encodings : ∀ x ∈ arrived, x.1.encode = .ok x.2 ∧ x.1.IsCanonical := by
      intro x member
      obtain ⟨own, encoded⟩ := of_mem_sent connected (order.mem_iff.mp member)
      exact ⟨encoded, canonical x.1 own⟩
    have each := (deliverAll_isDelivery records ((arrived.map (·.2)).map s.receive)).2
    have calls : ∀ x ∈ arrived, callsFor s.space.methods (s.receive x.2) =
        if x.2.length ≤ min s.maxPacket maxDatagram then x.1.addressed?.toList.flatMap (callsOn s.space.methods)
        else [] := fun x member => callsFor_take (encodings x member).1 (encodings x member).2 _ _
    rw [Server.serveDatagrams_eq]
    constructor
    · have each := List.forall₂_map_left_iff.mp (List.forall₂_map_left_iff.mp each)
      refine ((List.forall₂_and_left _ _).mpr ⟨calls, each⟩).imp ?_
      rintro x d ⟨own, delivery⟩
      rw [delivery.calls]
      exact own
    · rw [(flatMap_calls each).1, List.flatMap_map, List.flatMap_map, List.filterMap_filter,
        List.filterMap_eq_flatMap_toList, List.flatMap_assoc]
      refine List.flatMap_congr fun x member => ?_
      rw [calls x member]
      split <;> simp [*]
  · exact deliver_dropped (Packet.not_isMessage_take encoded (canonical p member) cut) space

/-- A message that is cut in the middle of its last four bytes, a bundle, and a message that fits, the last one first. -/
theorem DatagramClient.sent_serveDatagrams_cut :
    let counter : Method := ⟨.exact "/a", ⟨"counter", [.remember fun now => 0 :: now.memory]⟩⟩
    let s : Server := ⟨18, ⟨[counter], []⟩⟩
    let c : DatagramClient := ⟨40, true⟩
    let m : Message := ⟨"/a", [.float32 0x7fc00001]⟩
    let ps : List Packet := [.message ⟨"/a", [.string "a text"]⟩, .message ⟨"/a", [.string "a longer"]⟩,
      .message ⟨"/\x00", []⟩, .bundle .immediate [], .message m, .message ⟨"/a", List.replicate 9 (.int32 0)⟩]
    (c.sent ps).map (·.2.length) = [16, 20, 16, 12] ∧
      (s.serveDatagrams ((c.sent ps).reverse.map (·.2))).2.flatMap Delivery.calls =
        [(counter, m), (counter, ⟨"/a", [.string "a text"]⟩)] := by
  intro counter s c m ps
  have records : s.space.OnlyRecords := onlyRecords_remember _ _ _ _
  have fitting : ((c.sent ps).reverse.filter fun x => x.2.length ≤ min s.maxPacket maxDatagram).filterMap
      (·.1.addressed?) = [m, ⟨"/a", [.string "a text"]⟩] := by decide +kernel
  obtain ⟨-, served, -⟩ := sent_serveDatagrams c s ps (by decide) records (by decide +kernel)
  refine ⟨by decide +kernel, ?_⟩
  rw [(served _ (c.sent ps).reverse_perm).2, fitting]
  rfl

end OpenSound
