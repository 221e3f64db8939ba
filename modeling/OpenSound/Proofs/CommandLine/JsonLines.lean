import OpenSound.Proofs.CommandLine.Listening
import OpenSound.Proofs.Json.Packet

/-!
# Messages as lines of JSON

Values without floating point numbers come back from their JSON text. That text is a single line, so what a listener
prints as JSON falls apart into one line for each message that it received and matched, and from each line its message can
be read again.
-/

namespace OpenSound

namespace Json

/-- Lines that were put under one another come apart again, with nothing behind the last line break. -/
theorem splitOn_lines {lines : List (List Char)} (single : ∀ line ∈ lines, '\n' ∉ line) :
    (lines.flatMap fun line => line ++ ['\n']).splitOn '\n' = lines ++ [[]] := by
  induction lines with
  | nil => rfl
  | cons line lines ih =>
    obtain ⟨first, others⟩ := List.forall_mem_cons.mp single
    have ends : ∀ c ∈ line, (c == '\n') = false := by
      intro c member
      rw [beq_eq_false_iff_ne]
      rintro rfl
      exact first member
    rw [List.flatMap_cons, List.append_assoc, List.singleton_append, List.splitOn,
      List.splitOnP_append_cons_of_forall_mem ends _ rfl, List.cons_append]
    exact congrArg (line :: ·) (ih others)

end Json

namespace CommandLine

/-- A text that lists messages: it has one line of JSON for each of them and nothing else, and every message without
    floating point numbers is what its line is read as. -/
structure Lists (text : String) (ms : List Message) : Prop where
  lines : text.toList.splitOn '\n' = ms.map (fun m => m.toJson.text) ++ [[]]
  messages : List.Forall₂ (fun line m => m.IsExact → Json.decode? Message.ofJson? line = some m)
    (text.toList.splitOn '\n').dropLast ms

private theorem lists_messageLines (ms : List Message) : Lists (String.join (ms.map (messageLine true))) ms := by
  have text : (String.join (ms.map (messageLine true))).toList =
      (ms.map fun m => m.toJson.text).flatMap fun line => line ++ ['\n'] := by
    rw [String.toList_join, List.flatMap_map, List.flatMap_map]
    refine List.flatMap_congr fun m _ => ?_
    rw [messageLine, if_pos rfl, String.toList_append, String.toList_ofList]
    rfl
  have single : ∀ line ∈ ms.map (fun m => m.toJson.text), '\n' ∉ line := by
    intro line member here
    obtain ⟨m, -, rfl⟩ := List.mem_map.mp member
    exact absurd (m.isVisible_toJson '\n' here) (by decide)
  have lines := Json.splitOn_lines single
  rw [← text] at lines
  refine ⟨lines, ?_⟩
  rw [lines, List.dropLast_concat, List.forall₂_map_left_iff, List.forall₂_same]
  exact fun m _ exact => (Message.holds_toJson exact).decode? (by decide)

end CommandLine

open CommandLine (ListenCommand Lists Traffic)

/-- Values without floating point numbers come back from their JSON text as they were, and so do bundles that are nested
    at most 32 deep: any strings, blobs and integers, and any time tags. The text of a message has no control
    characters, whatever its arguments are. So a listener that prints JSON prints one line for each message that is
    delivered to it and whose address its pattern matches, in order, and those without floating point numbers are read
    back from their lines. Apart from the log, its own lines and these are all of its output. Over connections, which take
    turns in any order, the messages of each come in the order in which they were sent; of datagrams they come in the
    order of their delivery, which may be any, and none is missing or comes twice. -/
theorem Json.texts_read_back :
    (∀ m : Message, m.IsExact → Json.decode? Message.ofJson? m.toJson.text = some m) ∧
    (∀ b : Bundle, b.toPacket.IsExact → b.toPacket.depth ≤ 32 → Json.decode? Bundle.ofJson? b.toJson.text = some b) ∧
    (∀ p : Packet, p.IsExact → p.depth ≤ 32 → Json.decode? Packet.ofJson? p.toJson.text = some p) ∧
    (∀ m : Message, ∀ c ∈ m.toJson.text, 32 ≤ c.toNat) ∧
    ∀ (c : ListenCommand) (p : Pattern), c.asJson = true → Pattern.compile c.pattern = .ok p →
      (∀ packets, ∃ text, c.printed? packets = some text ∧ Lists text (Message.receivedMatching p.isMatch packets)) ∧
      (c.protocol = .tcp → ∀ ready (t : Traffic), ∃ handled text,
        Server.TakenInTurns defaultMaxFrame t.connections t.turns handled ∧
        Lists text (Message.receivedMatching p.isMatch (handled.map (·.2))) ∧
        c.run (.ok ()) ready t =
          ⟨0, c.banner ++ ListenCommand.readyLine ready ++ text ++ ListenCommand.stoppedLine, "", none⟩) ∧
      (c.protocol = .udp → ∀ ready (t : Traffic) (arrived : List (List UInt8)), t.datagrams.Perm arrived → ∃ ms text,
        ms = Message.receivedMatching p.isMatch (t.datagrams.map (·.take maxDatagram)) ∧
        ms.Perm (Message.receivedMatching p.isMatch (arrived.map (·.take maxDatagram))) ∧ Lists text ms ∧
        c.run (.ok ()) ready t =
          ⟨0, c.banner ++ ListenCommand.readyLine ready ++ text ++ ListenCommand.stoppedLine, "", none⟩) := by
  refine ⟨?_, ?_, ?_, fun m => m.isVisible_toJson, ?_⟩
  · intro m exact
    exact (Message.holds_toJson exact).decode? (by decide)
  · intro b exact shallow
    exact (Bundle.holds_toJson exact).decode? (by rw [Json.maxDepth]; omega)
  · intro p exact shallow
    exact (Packet.holds_toJson exact).decode? (by rw [Json.maxDepth]; omega)
  · intro c p json compiled
    have lists (ms : List Message) : Lists (String.join (ms.map (CommandLine.messageLine c.asJson))) ms := by
      rw [json]
      exact CommandLine.lists_messageLines ms
    refine ⟨fun packets => ⟨_, ListenCommand.printed?_eq compiled packets, lists _⟩, ?_, ?_⟩
    · intro tcp ready t
      obtain ⟨handled, each, taken⟩ := ListenCommand.deliveries_tcp tcp p t
      exact ⟨handled, _, taken, lists _, ListenCommand.run_eq compiled each ready⟩
    · intro udp ready t arrived order
      have each := ListenCommand.deliveries_udp udp p t
      exact ⟨_, _, rfl, ((order.map _).filterMap _).filter _, lists _, ListenCommand.run_eq compiled each ready⟩

/-- Strings with everything that is escaped, a blob, the least integer of 64 bits, a time tag that no 64-bit value stands
    for, and a bundle inside a bundle; and listeners that receive a message behind bytes that are no packet, one of them
    as datagrams that arrived the other way round. -/
theorem Json.texts_read_back_odd :
    let m : Message := ⟨"/\x22\\\n\x01é", [.string "\t\x1f\u2028", .blob [0, 255], .int64 (-2 ^ 63), .timeTag ⟨7, 0, true⟩, .nil]⟩
    let p : Packet := .bundle .immediate [.message m, .bundle ⟨1, 2, true⟩ [.message m]]
    let bytes : List UInt8 := [47, 97, 0, 0, 44, 0, 0, 0]
    let c : ListenCommand := ⟨.udp, "0.0.0.0", 8000, "/a", true⟩
    let c' : ListenCommand := ⟨.tcp, "0.0.0.0", 8000, "/a", true⟩
    Json.decode? Message.ofJson? m.toJson.text = some m ∧ Json.decode? Packet.ofJson? p.toJson.text = some p ∧
      '\n' ∉ m.toJson.text ∧
      (∃ text, c.printed? [[63], bytes] = some text ∧ Lists text [⟨"/a", []⟩]) ∧
      (∃ text, Lists text [⟨"/a", []⟩] ∧ c.run (.ok ()) "0.0.0.0:8000" ⟨[], [], [[63], bytes]⟩ =
        ⟨0, c.banner ++ ListenCommand.readyLine "0.0.0.0:8000" ++ text ++ ListenCommand.stoppedLine, "", none⟩) ∧
      ∃ text, Lists text [⟨"/a", []⟩] ∧
        c'.run (.ok ()) "0.0.0.0:8000" ⟨[[.bytes (frame [63] ++ frame bytes)]], [0, 0, 0], []⟩ =
        ⟨0, c'.banner ++ ListenCommand.readyLine "0.0.0.0:8000" ++ text ++ ListenCommand.stoppedLine, "", none⟩ := by
  intro m p bytes c c'
  obtain ⟨message, -, packet, visible, listens⟩ := texts_read_back
  have received : Message.receivedMatching (Pattern.exact "/a").isMatch [[63], bytes] = [⟨"/a", []⟩] := by
    have junk : Message.received? [63] = none := by rfl
    have decoded : Message.received? bytes = some ⟨"/a", []⟩ := Message.received?_eq_some.mpr
      (Packet.decode_of_encode (by rfl) (by decide +kernel) (by decide +kernel) (by decide +kernel))
    simp [Message.receivedMatching, junk, decoded, Pattern.isMatch]
  have compiled : Pattern.compile "/a" = .ok (.exact "/a") := by
    rw [Pattern.compile, if_neg (by decide)]
  obtain ⟨printed, -, datagrams⟩ := listens c (.exact "/a") rfl compiled
  obtain ⟨-, connections, -⟩ := listens c' (.exact "/a") rfl compiled
  obtain ⟨text, shown, lists⟩ := printed [[63], bytes]
  obtain ⟨_, text', rfl, -, lists', run⟩ :=
    datagrams rfl "0.0.0.0:8000" ⟨[], [], [[63], bytes]⟩ [bytes, [63]] (.swap ..)
  obtain ⟨handled, text'', taken, lists'', run'⟩ :=
    connections rfl "0.0.0.0:8000" ⟨[[.bytes (frame [63] ++ frame bytes)]], [0, 0, 0], []⟩
  have short : ([[63], bytes].map (·.take maxDatagram) : List (List UInt8)) = [[63], bytes] := by rfl
  rw [received] at lists
  rw [short, received] at lists'
  have ahead : Stream.packets defaultMaxFrame [.bytes (frame [63] ++ frame bytes)] = [[63], bytes] := by decide +kernel
  rw [taken.single (by rw [ahead]; decide), ahead, received] at lists''
  exact ⟨message m (by decide), packet p (by decide) (by decide), fun here => absurd (visible m '\n' here) (by decide),
    ⟨text, shown, lists⟩, ⟨text', lists', run⟩, text'', lists'', run'⟩

end OpenSound
