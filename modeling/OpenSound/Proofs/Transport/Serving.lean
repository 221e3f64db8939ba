import OpenSound.Proofs.Transport.Delivery
import OpenSound.Proofs.Transport.Framing
import OpenSound.Transport.Server

/-!
# Serving connections

A server whose handlers only record delivers of a connection the packets of the longest run of complete frames at the
front of what arrives on it, one after another. A packet that is no message costs nothing but its own delivery, and the
first frame that is too large or cut short ends the run. Connections that are served at the same time do not disturb
one another, in whatever order they get their turns.
-/

namespace OpenSound

open Wire

namespace AddressSpace

theorem OnlyRecords.deliver {s : AddressSpace} (records : s.OnlyRecords) (bytes : List UInt8) :
    (s.deliver bytes).dispatch.space.OnlyRecords := by
  rw [OnlyRecords, (deliver_isDelivery records bytes).registry]
  exact records

theorem onlyRecords_remember (p : Pattern) (name : String) (f : Situation → List UInt8) (memory : List UInt8) :
    OnlyRecords ⟨[⟨p, ⟨name, [.remember f]⟩⟩], memory⟩ := by
  intro t here a does
  rw [List.mem_singleton.mp here] at does
  rw [List.mem_singleton.mp does]
  exact .remember f

private theorem deliverAll_append (s : AddressSpace) (front back : List (List UInt8)) :
    s.deliverAll (front ++ back) =
      (((s.deliverAll front).1.deliverAll back).1,
        (s.deliverAll front).2 ++ ((s.deliverAll front).1.deliverAll back).2) := by
  induction front generalizing s with
  | nil => rfl
  | cons bytes front ih => rw [List.cons_append, deliverAll_cons, ih, deliverAll_cons, List.cons_append]

private theorem deliverAll_length (s : AddressSpace) (packets : List (List UInt8)) :
    (s.deliverAll packets).2.length = packets.length := by
  induction packets generalizing s with
  | nil => rfl
  | cons bytes packets ih => rw [deliverAll_cons, List.length_cons, ih, List.length_cons]

end AddressSpace

open AddressSpace

namespace Server

/-- Of a connection, the server delivers just these packets, one after another. -/
def DeliversOf (s : Server) (arriving : Stream) (packets : List (List UInt8)) : Prop :=
  s.serveConnection arriving =
    ({ s with space := (s.space.deliverAll packets).1 }, (s.space.deliverAll packets).2)

theorem deliverUntilAborted_recording {space : AddressSpace} (records : space.OnlyRecords)
    (packets : List (List UInt8)) : deliverUntilAborted space packets = space.deliverAll packets := by
  induction packets generalizing space with
  | nil => rfl
  | cons bytes packets ih =>
    rw [deliverUntilAborted, if_pos (deliver_isDelivery records bytes).ending, ih (records.deliver bytes)]
    rfl

theorem deliversOf_run {s : Server} (records : s.space.OnlyRecords) {arriving : Stream} {packets : List (List UInt8)}
    (run : IsLongestRun s.maxPacket arriving.reach packets) : s.DeliversOf arriving packets := by
  rw [DeliversOf, serveConnection, (arriving.packets_isLongestRun s.maxPacket).unique run,
    deliverUntilAborted_recording records]

/-- How far a connection has been served after a number of turns: what was delivered of it are the first packets of the
    frames at the front of what arrives; the rest is still to arrive, or there was no further frame. -/
def Connection.IsServed (methods : List Method) (max : Nat) (arriving : Stream) (turns : Nat) (c : Connection) : Prop :=
  ∃ packets, (∀ packet ∈ packets, Fits max packet) ∧ List.Forall₂ (IsDelivery methods) packets c.deliveries ∧
    match c.arriving with
    | some rest => arriving.reach = packets.flatMap frame ++ rest.reach ∧ packets.length = turns
    | none => IsLongestRun max arriving.reach packets

private theorem Connection.isServed_opened (methods : List Method) (max : Nat) (arriving : Stream) :
    (Connection.opened arriving).IsServed methods max arriving 0 :=
  ⟨[], by simp, .nil, rfl, rfl⟩

/-- What was delivered of a connection is a front of its longest run, and all of it after more turns than packets. -/
theorem Connection.IsServed.of_run {methods : List Method} {max : Nat} {arriving : Stream} {turns : Nat}
    {c : Connection} {packets : List (List UInt8)} (served : c.IsServed methods max arriving turns)
    (run : IsLongestRun max arriving.reach packets) :
    ∃ delivered, delivered <+: packets ∧ List.Forall₂ (IsDelivery methods) delivered c.deliveries ∧
      (packets.length < turns → c.arriving = none ∧ delivered = packets) := by
  obtain ⟨delivered, fits, deliveries, left⟩ := served
  obtain ⟨stream, ds⟩ := c
  cases stream with
  | none =>
    obtain rfl := left.unique run
    exact ⟨delivered, List.prefix_rfl, deliveries, fun _ => ⟨rfl, rfl⟩⟩
  | some rest =>
    obtain ⟨arrives, rfl⟩ := left
    have front := run.longest delivered fits ⟨rest.reach, arrives.symm⟩
    exact ⟨delivered, front, deliveries, fun enough => absurd front.length_le (Nat.not_le_of_lt enough)⟩

theorem takeTurn_registry {s : Server} (records : s.space.OnlyRecords) (c : Connection) :
    (s.takeTurn c).1.maxPacket = s.maxPacket ∧ (s.takeTurn c).1.space.methods = s.space.methods := by
  unfold takeTurn
  split
  · exact ⟨rfl, rfl⟩
  split
  · exact ⟨rfl, (deliver_isDelivery records _).registry⟩
  · exact ⟨rfl, rfl⟩

theorem takeTurn_onlyRecords {s : Server} (records : s.space.OnlyRecords) (c : Connection) :
    (s.takeTurn c).1.space.OnlyRecords := by
  rw [OnlyRecords, (takeTurn_registry records c).2]
  exact records

/-- A turn serves a connection one packet further, or finds that there is none. -/
theorem takeTurn_isServed {s : Server} (records : s.space.OnlyRecords) {arriving : Stream} {turns : Nat}
    {c : Connection} (served : c.IsServed s.space.methods s.maxPacket arriving turns) :
    (s.takeTurn c).2.IsServed s.space.methods s.maxPacket arriving (turns + 1) := by
  obtain ⟨packets, fits, delivered, left⟩ := served
  obtain ⟨stream, deliveries⟩ := c
  cases stream with
  | none => exact ⟨packets, fits, delivered, left⟩
  | some rest =>
    obtain ⟨arrives, length⟩ := left
    simp only [takeTurn]
    split
    · rename_i packet rest' read
      obtain ⟨fits', framed⟩ := framed_of_readFrame read
      have delivery := deliver_isDelivery records packet
      refine ⟨packets ++ [packet], List.forall_mem_append.mpr ⟨fits, by simpa using fits'⟩,
        List.rel_append delivered (.cons delivery .nil), ?_⟩
      rw [if_pos delivery.ending]
      refine ⟨?_, by rw [List.length_append, length, List.length_singleton]⟩
      rw [arrives, framed]
      simp
    · rename_i none
      have other := not_startsFramed_of_readFrame none
      exact ⟨packets, fits, delivered, isLongestRun_iff.mpr ⟨fits, rest.reach, arrives, other⟩⟩

private theorem serveTurns_ended (s : Server) (deliveries : List Delivery) (turns : Nat) :
    s.serveTurns [⟨none, deliveries⟩] (List.replicate turns 0) = (s, [⟨none, deliveries⟩]) := by
  induction turns with
  | zero => rfl
  | succ turns ih => exact ih

/-- A connection that is the only one and gets more turns than packets arrive on it is served to its end, whatever
    handlers do. -/
theorem serveTurns_alone (s : Server) (arriving : Stream) (deliveries : List Delivery) {turns : Nat}
    (enough : (arriving.packets s.maxPacket).length < turns) :
    s.serveTurns [⟨some arriving, deliveries⟩] (List.replicate turns 0) =
      ((s.serveConnection arriving).1, [⟨none, deliveries ++ (s.serveConnection arriving).2⟩]) := by
  induction turns generalizing s arriving deliveries with
  | zero => exact absurd enough (Nat.not_lt_zero _)
  | succ turns ih =>
    rw [List.replicate_succ, serveTurns]
    simp only [List.getElem?_cons_zero, takeTurn, List.set_cons_zero]
    split
    · rename_i packet rest read
      have packets := Stream.packets_of_readFrame read
      rw [packets, List.length_cons] at enough
      simp only [serveConnection, packets, deliverUntilAborted]
      split
      · have later := ih { s with space := (s.space.deliver packet).dispatch.space } rest
          (deliveries ++ [s.space.deliver packet]) (Nat.lt_of_succ_lt_succ enough)
        rw [later, serveConnection, List.append_assoc]
        rfl
      · exact serveTurns_ended ..
    · rename_i none
      simp only [serveConnection, Stream.packets_of_not_readFrame none, deliverUntilAborted, List.append_nil]
      exact serveTurns_ended ..

/-- In whatever order connections get their turns, each is served as far as the number of its own turns takes it. -/
theorem serveTurns_isServed {s : Server} (records : s.space.OnlyRecords) {connections : List Connection} {i : Nat}
    {c : Connection} (found : connections[i]? = some c) {arriving : Stream} {before : Nat}
    (served : c.IsServed s.space.methods s.maxPacket arriving before) (turns : List Nat) :
    ∃ c', (s.serveTurns connections turns).2[i]? = some c' ∧
      c'.IsServed s.space.methods s.maxPacket arriving (before + turns.count i) := by
  induction turns generalizing s connections c before with
  | nil => exact ⟨c, found, served⟩
  | cons j turns ih =>
    rw [serveTurns]
    split
    · rename_i missing
      have other : j ≠ i := by
        rintro rfl
        rw [found] at missing
        cases missing
      rw [List.count_cons_of_ne other]
      exact ih records found served
    · rename_i d present
      -- the limit and the methods outlast every turn, so the rest of the turns is served under the same ones
      obtain ⟨limit, methods⟩ := takeTurn_registry records d
      have records' := takeTurn_onlyRecords records d
      simp only
      by_cases own : j = i
      · subst own
        obtain rfl : c = d := Option.some.inj (found.symm.trans present)
        have inside : j < connections.length := (List.getElem?_eq_some_iff.mp found).1
        have turned := takeTurn_isServed records served
        rw [← limit, ← methods] at turned
        obtain ⟨c', at_j, served'⟩ := ih records' (List.getElem?_set_self inside) turned
        refine ⟨c', at_j, ?_⟩
        rwa [limit, methods, Nat.add_assoc, Nat.add_comm 1, ← List.count_cons_self] at served'
      · rw [← limit, ← methods] at served
        have kept : (connections.set j (s.takeTurn d).2)[i]? = some c := by
          rw [List.getElem?_set_ne own]
          exact found
        obtain ⟨c', at_i, served'⟩ := ih records' kept served
        refine ⟨c', at_i, ?_⟩
        rwa [limit, methods, ← List.count_cons_of_ne own] at served'

theorem serveDatagrams_eq (s : Server) (datagrams : List (List UInt8)) :
    s.serveDatagrams datagrams = ({ s with space := (s.space.deliverAll (datagrams.map s.receive)).1 },
      (s.space.deliverAll (datagrams.map s.receive)).2) := by
  induction datagrams generalizing s with
  | nil => rfl
  | cons datagram datagrams ih =>
    have later := ih { s with space := (s.space.deliver (s.receive datagram)).dispatch.space }
    simp only [serveDatagrams, serveDatagram, later]
    rfl

/-- Bytes that are no message can be left out of a connection: everything else is delivered as it would have been. -/
theorem serveConnection_dropped {s : Server} (records : s.space.OnlyRecords) {early : List (List UInt8)}
    {junk late : List UInt8} {a b : Stream} (fits : ∀ packet ∈ early, Fits s.maxPacket packet)
    (fits' : Fits s.maxPacket junk) (other : ¬IsMessage junk)
    (arrives : a.reach = early.flatMap frame ++ (frame junk ++ late))
    (arrives' : b.reach = early.flatMap frame ++ late) :
    ∃ before d after, before.length = early.length ∧ d.calls = [] ∧
      s.serveConnection a = ((s.serveConnection b).1, before ++ d :: after) ∧
      (s.serveConnection b).2 = before ++ after := by
  obtain ⟨packets, run⟩ := exists_longestRun s.maxPacket late
  have delivers := deliversOf_run records (arrives ▸ (run.cons fits').append fits : IsLongestRun _ a.reach _)
  have delivers' := deliversOf_run records (arrives' ▸ run.append fits : IsLongestRun _ b.reach _)
  have nothing := deliver_dropped other (s.space.deliverAll early).1
  have same : ((s.space.deliverAll early).1.deliver junk).dispatch.space = (s.space.deliverAll early).1 := by
    rw [nothing]
  rw [DeliversOf, deliverAll_append, deliverAll_cons, same] at delivers
  rw [DeliversOf, deliverAll_append] at delivers'
  refine ⟨(s.space.deliverAll early).2, (s.space.deliverAll early).1.deliver junk,
    ((s.space.deliverAll early).1.deliverAll packets).2, deliverAll_length .., ?_, ?_, congrArg Prod.snd delivers'⟩
  · rw [Delivery.calls, nothing]
    rfl
  · rw [delivers, delivers']

/-- What a server with handlers that only record delivers of a connection depends on the bytes that arrive on it alone.
    It delivers exactly the packets of the longest run of complete frames of at most its size at their front, in order.
    Of such a run, empty packets, bytes that are no packet and bundles are dropped: they call nobody, and without them
    all other deliveries and the server afterwards are the same. A frame whose length is too large ends the connection,
    whatever follows it, and of a frame that is cut short nothing is delivered. And of connections that are served at
    the same time, in whatever order they get their turns, each is served as far as its own turns take it: what is
    called, recorded, counted and logged for it is what the first packets of its own run call for, and all of them once
    it got more turns than there are packets. -/
theorem serveConnection_recording (s : Server) (records : s.space.OnlyRecords) :
    (∀ arriving, ∃ packets, IsLongestRun s.maxPacket arriving.reach packets ∧ s.DeliversOf arriving packets ∧
      List.Forall₂ (IsDelivery s.space.methods) packets (s.serveConnection arriving).2) ∧
    (∀ early, (∀ packet ∈ early, Fits s.maxPacket packet) →
      (∀ junk late a b, Fits s.maxPacket junk →
        (junk = [] ∨ (∃ e, Packet.decode junk = .error e) ∨ ∃ t ps, Packet.decode junk = .ok (.bundle t ps)) →
        a.reach = early.flatMap frame ++ (frame junk ++ late) → b.reach = early.flatMap frame ++ late →
        ∃ before d after, before.length = early.length ∧ d.calls = [] ∧
          s.serveConnection a = ((s.serveConnection b).1, before ++ d :: after) ∧
          (s.serveConnection b).2 = before ++ after) ∧
      (∀ length late arriving, s.maxPacket < length → length < UInt32.size →
        arriving.reach = early.flatMap frame ++ (bigEndian framePrefixWidth length ++ late) →
        s.DeliversOf arriving early) ∧
      ∀ packet part arriving, packet.length < UInt32.size → part <+: frame packet → part ≠ frame packet →
        arriving.reach = early.flatMap frame ++ part → s.DeliversOf arriving early) ∧
    ∀ (streams : List Stream) (turns : List Nat) (i : Nat) (arriving : Stream) (packets : List (List UInt8)),
      streams[i]? = some arriving → IsLongestRun s.maxPacket arriving.reach packets →
      ∃ c delivered, (s.serveTurns (streams.map .opened) turns).2[i]? = some c ∧ delivered <+: packets ∧
        List.Forall₂ (IsDelivery s.space.methods) delivered c.deliveries ∧
        (packets.length < turns.count i → c.arriving = none ∧ delivered = packets) := by
  refine ⟨fun arriving => ?_, fun early fits => ⟨fun junk late a b fits' dropped arrives arrives' => ?_,
    fun length late arriving large small arrives => ?_, fun packet part arriving small before strict arrives => ?_⟩,
    fun streams turns i arriving packets found run => ?_⟩
  · have run := arriving.packets_isLongestRun s.maxPacket
    have delivers := deliversOf_run records run
    refine ⟨_, run, delivers, ?_⟩
    rw [delivers]
    exact (deliverAll_isDelivery records _).2
  · refine serveConnection_dropped records fits fits' ?_ arrives arrives'
    rintro ⟨m, decoded⟩
    rcases dropped with rfl | ⟨e, failed⟩ | ⟨t, ps, bundle⟩
    · cases (show Packet.decode [] = .error (.invalidFraming 0) from rfl).symm.trans decoded
    · cases failed.symm.trans decoded
    · cases bundle.symm.trans decoded
  · have run := (IsLongestRun.nil (not_startsFramed_of_large large small late)).append fits
    rw [List.append_nil, ← arrives] at run
    exact deliversOf_run records run
  · have run := (IsLongestRun.nil (not_startsFramed_of_cut small before strict s.maxPacket)).append fits
    rw [List.append_nil, ← arrives] at run
    exact deliversOf_run records run
  · have opened : (streams.map Connection.opened)[i]? = some (.opened arriving) := by
      rw [List.getElem?_map, found, Option.map_some]
    obtain ⟨c, at_i, served⟩ := serveTurns_isServed records opened (Connection.isServed_opened _ _ arriving) turns
    obtain ⟨delivered, front, deliveries, ended⟩ := served.of_run run
    exact ⟨c, delivered, at_i, front, deliveries, by simpa using ended⟩

/-- A connection with a frame that is too large, and one on which a message follows bytes that are no packet. -/
theorem serveConnection_recording_pair :
    let counter : Method := ⟨.exact "/a", ⟨"counter", [.remember fun now => 0 :: now.memory]⟩⟩
    let s : Server := ⟨8, ⟨[counter], []⟩⟩
    let m : List UInt8 := [47, 97, 0, 0, 44, 0, 0, 0]
    let large : Stream := [.bytes ([0, 0, 0, 9] ++ frame m)]
    let good : Stream := [.bytes (frame [63]), .bytes (frame m)]
    s.space.OnlyRecords ∧ s.DeliversOf large [] ∧
      ∃ c, (s.serveTurns [.opened large, .opened good] [1, 0, 1, 0, 1]).2[1]? = some c ∧ c.arriving = none ∧
        c.deliveries.flatMap Delivery.calls = [(counter, ⟨"/a", []⟩)] := by
  intro counter s m large good
  have records : s.space.OnlyRecords := onlyRecords_remember _ _ _ _
  have junk : Packet.decode [63] = .error (.invalidFraming 1) := by rfl
  have message : Packet.decode m = .ok (.message ⟨"/a", []⟩) :=
    Packet.decode_of_encode (by rfl) (by decide +kernel) (by decide +kernel) (by decide +kernel)
  have fits : ∀ packet ∈ [[63], m], Fits s.maxPacket packet := by decide
  have run : IsLongestRun s.maxPacket good.reach [[63], m] := IsLongestRun.whole fits
  obtain ⟨-, ends, connections⟩ := serveConnection_recording s records
  refine ⟨records, (ends [] (by simp)).2.1 9 (frame m) large (by decide) (by decide) rfl, ?_⟩
  obtain ⟨c, delivered, here, -, deliveries, ended⟩ := connections [large, good] [1, 0, 1, 0, 1] 1 good _ rfl run
  obtain ⟨none, rfl⟩ := ended (by decide)
  refine ⟨c, here, none, ?_⟩
  rw [(flatMap_calls deliveries).1]
  simp only [List.flatMap_cons, List.flatMap_nil, callsFor, junk, message]
  rfl

end Server

end OpenSound
