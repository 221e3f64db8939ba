import OpenSound.CommandLine.Run
import OpenSound.Proofs.Pattern.Plain
import OpenSound.Proofs.Transport.Turns

/-!
# What the listener prints

A listener has one method, and the handler of that method prints. So of the packets that arrive it prints the messages
whose addresses its pattern matches, one after another and in order. No wildcard stands for a line break, so the pattern
of a listener that is given none matches only the addresses without one.
-/

namespace OpenSound

/-- The message that received bytes are. -/
def Message.received? (bytes : List UInt8) : Option Message :=
  match Packet.decode bytes with
  | .ok (.message m) => some m
  | .ok (.bundle ..) | .error _ => none

theorem Message.received?_eq_some {bytes : List UInt8} {m : Message} :
    received? bytes = some m ↔ Packet.decode bytes = .ok (.message m) := by
  unfold received?
  cases Packet.decode bytes with
  | error e => simp
  | ok p => cases p <;> simp

/-- The messages among received packets whose addresses match. -/
def Message.receivedMatching (isMatch : String → Bool) (packets : List (List UInt8)) : List Message :=
  (packets.filterMap received?).filter fun m => isMatch m.address

namespace AddressSpace

private theorem map_callsFor_singleton (t : Method) (bytes : List UInt8) :
    (callsFor [t] bytes).map (·.2) = Message.receivedMatching t.isMatch [bytes] := by
  unfold callsFor Message.receivedMatching
  cases decoded : Packet.decode bytes with
  | error e => simp [Message.received?, decoded]
  | ok p =>
    cases p with
    | bundle t ps => simp [Message.received?, decoded]
    | message m => cases hit : t.isMatch m.address <;> simp [Message.received?, decoded, matching, hit]

private theorem map_callsFor_flatMap (t : Method) (packets : List (List UInt8)) :
    (packets.flatMap (callsFor [t])).map (·.2) = Message.receivedMatching t.isMatch packets := by
  induction packets with
  | nil => rfl
  | cons bytes packets ih =>
    have first := map_callsFor_singleton t bytes
    simp only [Message.receivedMatching, List.flatMap_cons, List.map_append] at first ih ⊢
    rw [first, ih, ← List.filter_append, ← List.filterMap_append, List.singleton_append]

end AddressSpace

namespace CommandLine

private theorem join_map_join {α β : Type} (f : α → List β) (g : β → String) (as : List α) :
    String.join (as.map fun a => String.join ((f a).map g)) = String.join ((as.flatMap f).map g) := by
  induction as with
  | nil => rfl
  | cons a as ih => rw [List.map_cons, String.join_cons, ih, List.flatMap_cons, List.map_append, String.join_append]

private theorem deliveryLines_eq (asJson : Bool) (d : Delivery) :
    deliveryLines asJson d = String.join (d.calls.map fun call => messageLine asJson call.2) := by
  rw [deliveryLines, Delivery.calls, List.map_map]
  rfl

/-- What comes out of a space whose handlers only record, when packets are delivered to it. -/
theorem join_deliveryLines {methods : List Method} {packets : List (List UInt8)} {ds : List Delivery}
    (each : List.Forall₂ (AddressSpace.IsDelivery methods) packets ds) (asJson : Bool) :
    String.join (ds.map (deliveryLines asJson)) =
      String.join (((packets.flatMap (AddressSpace.callsFor methods)).map (·.2)).map (messageLine asJson)) := by
  rw [funext (deliveryLines_eq asJson), join_map_join Delivery.calls, (AddressSpace.flatMap_calls each).1, List.map_map]
  rfl

namespace ListenCommand

/-- The listener's space for a pattern. -/
def printing (p : Pattern) : AddressSpace := AddressSpace.empty.add ⟨p, ⟨"print", []⟩⟩

private theorem printing_onlyRecords (p : Pattern) : (printing p).OnlyRecords := by
  intro t here a does
  rw [List.mem_singleton.mp here] at does
  cases does

private theorem prepare_eq {c : ListenCommand} {p : Pattern} (compiled : Pattern.compile c.pattern = .ok p) :
    c.prepare (.ok ()) = .ok (printing p) := by
  simp only [prepare, AddressSpace.register, AddressSpace.method, compiled]
  rfl

/-- What comes out of the listener for packets that arrive, once it is ready. -/
def printed? (c : ListenCommand) (packets : List (List UInt8)) : Option String :=
  match c.prepare (.ok ()) with
  | .ok space => some (String.join ((space.deliverAll packets).2.map (deliveryLines c.asJson)))
  | .error _ => none

/-- What packets print that are delivered one after another. -/
theorem join_printing {p : Pattern} {packets : List (List UInt8)} {ds : List Delivery}
    (each : List.Forall₂ (AddressSpace.IsDelivery (printing p).methods) packets ds) (asJson : Bool) :
    String.join (ds.map (deliveryLines asJson)) =
      String.join ((Message.receivedMatching p.isMatch packets).map (messageLine asJson)) := by
  rw [join_deliveryLines each, show (printing p).methods = [⟨p, ⟨"print", []⟩⟩] from rfl,
    AddressSpace.map_callsFor_flatMap]
  rfl

/-- A listener prints the messages whose addresses its pattern matches. -/
theorem printed?_eq {c : ListenCommand} {p : Pattern} (compiled : Pattern.compile c.pattern = .ok p)
    (packets : List (List UInt8)) :
    c.printed? packets =
      some (String.join ((Message.receivedMatching p.isMatch packets).map (messageLine c.asJson))) := by
  simp only [printed?, prepare_eq compiled]
  rw [join_printing (AddressSpace.deliverAll_isDelivery (printing_onlyRecords p) packets).2]

/-- A listener that is stopped has printed what packets print that are delivered to it, between the lines that say when it
    was ready and when it was stopped. -/
theorem run_eq {c : ListenCommand} {p : Pattern} (compiled : Pattern.compile c.pattern = .ok p) {t : Traffic}
    {packets : List (List UInt8)}
    (each : List.Forall₂ (AddressSpace.IsDelivery (printing p).methods) packets (c.deliveries (printing p) t))
    (ready : String) :
    c.run (.ok ()) ready t = ⟨0, c.banner ++ readyLine ready ++
      String.join ((Message.receivedMatching p.isMatch packets).map (messageLine c.asJson)) ++ stoppedLine, "", none⟩ := by
  simp only [run, prepare_eq compiled]
  rw [join_printing each]

/-- Of connections a listener handles the packets at the front of each in order, as far as the turns go. -/
theorem deliveries_tcp {c : ListenCommand} (tcp : c.protocol = .tcp) (p : Pattern) (t : Traffic) :
    ∃ handled, List.Forall₂ (AddressSpace.IsDelivery (printing p).methods) (handled.map (·.2))
        (c.deliveries (printing p) t) ∧
      Server.TakenInTurns defaultMaxFrame t.connections t.turns handled := by
  obtain ⟨handled, delivered, each⟩ := Server.deliveriesInTurns_recording
    (s := ⟨defaultMaxFrame, printing p⟩) (printing_onlyRecords p) (t.connections.map .opened) t.turns
  have ahead (i : Nat) : Server.aheadAt defaultMaxFrame (t.connections.map .opened) i =
      (t.connections.getD i []).packets defaultMaxFrame := by
    rw [Server.aheadAt, List.getElem?_map, List.getD_eq_getElem?_getD]
    cases t.connections[i]? <;> rfl
  refine ⟨handled, ?_, fun i => ahead i ▸ (each i).1, fun i => ahead i ▸ (each i).2⟩
  simp only [deliveries, tcp]
  exact List.forall₂_map_left_iff.mpr (List.forall₂_map_right_iff.mpr delivered)

/-- Of datagrams a listener handles what its buffer holds of each. -/
theorem deliveries_udp {c : ListenCommand} (udp : c.protocol = .udp) (p : Pattern) (t : Traffic) :
    List.Forall₂ (AddressSpace.IsDelivery (printing p).methods) (t.datagrams.map (·.take maxDatagram))
      (c.deliveries (printing p) t) := by
  simp only [deliveries, udp, Server.serveDatagrams_eq]
  exact (AddressSpace.deliverAll_isDelivery (printing_onlyRecords p) _).2

end ListenCommand

end CommandLine

namespace Pattern

private theorem exists_behind_slash {address : String} (front : address.toList.head? = some '/') :
    ∃ rest, address = "/" ++ rest := by
  obtain ⟨rest, same⟩ := List.head?_eq_some_iff.mp front
  exact ⟨String.ofList rest, by rw [← String.toList_inj, same]; simp⟩

/-- The pattern of a listener that is given none matches the received addresses without a line break. -/
theorem isMatch_default {p : Pattern} (compiled : compile "/*" = .ok p) {bytes : List UInt8} {packet : Packet}
    (decoded : Packet.decode bytes = .ok packet) {m : Message} (inside : m ∈ packet.messages) :
    p.isMatch m.address = true ↔ '\n' ∉ m.address.toList := by
  obtain ⟨_, again, matched⟩ := matches_run (w := "/") (by decide)
  cases compiled.symm.trans again
  obtain ⟨rest, address⟩ := exists_behind_slash ((Packet.decodeWithin_iff.mp decoded).1.sound.1 m inside)
  rw [matched, address]
  constructor
  · rintro ⟨t, free, same⟩
    rw [same, String.toList_append]
    simpa using free
  · intro free
    rw [String.toList_append] at free
    exact ⟨rest, by simpa using free, rfl⟩

/-- What is said of the two wildcards behind a text: one stands for any characters, and one for any single character. -/
structure WildcardsAsDocumented (w : String) : Prop where
  run : ∃ p, compile (w ++ "*") = .ok p ∧ ∀ t : String, p.isMatch (w ++ t) = true
  single : ∃ p, compile (w ++ "?") = .ok p ∧ ∀ c : Char, p.isMatch (w ++ String.singleton c) = true

/-- Behind a text without wildcards both stand for anything but a line break: a run for the texts without one, and a
    single wildcard for the other characters. So a listener that is given no pattern matches, of the messages in what it
    receives, those whose addresses have no line break, and these are the messages that it prints. -/
theorem wildcards_stop_at_line_breaks (w : String) (plain : hasWildcard w = false) :
    Matches (w ++ "*") (fun address => ∃ t : String, '\n' ∉ t.toList ∧ address = w ++ t) ∧
    Matches (w ++ "?") (fun address => ∃ c, c ≠ '\n' ∧ address = w ++ String.singleton c) ∧
    (∃ p, compile "/*" = .ok p ∧ ∀ bytes packet, Packet.decode bytes = .ok packet → ∀ m ∈ packet.messages,
      (p.isMatch m.address = true ↔ '\n' ∉ m.address.toList)) ∧
    ∀ (s : CommandLine.Scan) (c : CommandLine.ListenCommand), s.operands = [] → s.command = .ok (.listen c) →
      ∀ packets, c.printed? packets = some (String.join
        (((packets.filterMap Message.received?).filter fun m => '\n' ∉ m.address.toList).map
          (CommandLine.messageLine c.asJson))) := by
  obtain ⟨p, compiled, -⟩ : Matches "/*" _ := matches_run (w := "/") (by decide)
  refine ⟨matches_run plain, matches_single plain, ⟨p, compiled, fun _ _ decoded _ => isMatch_default compiled decoded⟩, ?_⟩
  intro s c none asked packets
  have default : c.pattern = "/*" := by
    unfold CommandLine.Scan.command at asked
    rw [none] at asked
    split at asked <;> cases asked
    rfl
  -- Only messages that were decoded are known to have a slash in front of their addresses.
  have same (m : Message) (received : m ∈ packets.filterMap Message.received?) :
      p.isMatch m.address = decide ('\n' ∉ m.address.toList) := by
    obtain ⟨bytes, -, read⟩ := List.mem_filterMap.mp received
    rw [Bool.eq_iff_iff, isMatch_default compiled (Message.received?_eq_some.mp read) (by simp [Packet.messages]),
      decide_eq_true_iff]
  rw [CommandLine.ListenCommand.printed?_eq (by rwa [default]), Message.receivedMatching, List.filter_congr same]

/-- A text that ends like the mark of a negated class, with both wildcards. -/
theorem wildcards_stop_at_line_breaks_mark : hasWildcard "/a!" = false ∧
    (∃ p, compile "/a!*" = .ok p ∧ p.isMatch "/a!" = true ∧ p.isMatch "/a!\r[*" = true ∧ p.isMatch "/a!b\n" = false) ∧
    ∃ p, compile "/a!?" = .ok p ∧ p.isMatch "/a!\t" = true ∧ p.isMatch "/a!\n" = false := by
  obtain ⟨⟨p, runs, run⟩, ⟨q, singles, single⟩, -⟩ := wildcards_stop_at_line_breaks "/a!" (by decide)
  have cut (t t' : String) (same : "/a!" ++ t = "/a!" ++ t') : t = t' := by simpa using same
  refine ⟨by decide, ⟨p, runs, (run _).mpr ⟨"", by decide, rfl⟩, (run _).mpr ⟨"\r[*", by decide, rfl⟩, ?_⟩,
    ⟨q, singles, (single _).mpr ⟨'\t', by decide, rfl⟩, ?_⟩⟩
  · refine Bool.eq_false_iff.mpr fun found => ?_
    obtain ⟨t, free, same⟩ := (run _).mp found
    rw [← cut "b\n" t same] at free
    exact free (by decide)
  · refine Bool.eq_false_iff.mpr fun found => ?_
    obtain ⟨c, other, same⟩ := (single _).mp found
    have same := congrArg String.toList (cut "\n" _ same)
    simp at same
    exact other same.symm

/-- A message with a line break in its address can be received, and the pattern of a listener that is given none does
    not match it. -/
theorem not_wildcardsAsDocumented_line_break : ¬WildcardsAsDocumented "/" ∧
    (∃ p, compile "/*" = .ok p ∧ p.isMatch "/a\nb" = false) ∧
    Packet.decode [47, 97, 10, 98, 0, 0, 0, 0, 44, 0, 0, 0] = .ok (.message ⟨"/a\nb", []⟩) := by
  obtain ⟨p, compiled, -⟩ : Matches "/*" _ := matches_run (w := "/") (by decide)
  have decoded : Packet.decode [47, 97, 10, 98, 0, 0, 0, 0, 44, 0, 0, 0] = .ok (.message ⟨"/a\nb", []⟩) :=
    Packet.decode_of_encode (by rfl) (by decide +kernel) (by decide +kernel) (by decide +kernel)
  have missed : p.isMatch "/a\nb" ≠ true := fun found =>
    (isMatch_default compiled decoded (List.mem_singleton.mpr rfl)).mp found (by decide)
  refine ⟨fun documented => ?_, ⟨p, compiled, by simpa using missed⟩, decoded⟩
  obtain ⟨_, again, all⟩ := documented.run
  cases compiled.symm.trans again
  exact missed (all "a\nb")

end Pattern

end OpenSound
