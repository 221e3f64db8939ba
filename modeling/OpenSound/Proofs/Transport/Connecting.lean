import OpenSound.Proofs.Transport.Serving
import OpenSound.Transport.Client

/-!
# The connections of a client

A client that opens one connection after another writes to the latest at most. Every connection has a flag of its own,
which its reader takes down at its end; so a reader that comes to its end late takes down a flag that nobody looks at
any more. Whatever is called and whatever the readers find, in any order: the client is connected exactly if some
connect opened a connection, and since the latest one that did there was neither a disconnect nor the end of that
connection's reader.
-/

namespace OpenSound

namespace Link

/-- The connection that packets go out on, with its flag still up. -/
def Holds (l : Link) (k : Nat) : Prop := l.writer = some k ∧ l.flags[l.flag]? = some true

theorem isOpen_iff {l : Link} : l.isOpen = true ↔ ∃ k, l.Holds k := by
  rw [isOpen, Bool.and_eq_true, Option.isSome_iff_exists, beq_iff_eq]
  exact exists_and_right.symm

/-- Connections have their flags behind the first one, in order. The client looks at the flag of the latest connection,
    and writes to no other. -/
structure IsConsistent (l : Link) : Prop where
  flags : l.flags.length = l.readers.length + 1
  latest : l.flag = l.readers.length
  shared : ∀ k r, l.readers[k]? = some r → r.flag = k + 1
  writer : ∀ k, l.writer = some k → k + 1 = l.flag

private theorem closed_isConsistent : closed.IsConsistent := ⟨rfl, rfl, nofun, nofun⟩

variable {l : Link}

namespace IsConsistent

theorem takeDown (consistent : l.IsConsistent) (flag : Nat) : (l.takeDown flag).IsConsistent where
  flags := by rw [Link.takeDown, List.length_set, consistent.flags]
  latest := consistent.latest
  shared := consistent.shared
  writer := consistent.writer

theorem onReader (consistent : l.IsConsistent) (k : Nat) {change : Reader → Reader}
    (keeps : ∀ r, (change r).flag = r.flag) : (l.onReader k change).IsConsistent where
  flags := by rw [Link.onReader, List.length_modify, consistent.flags]
  latest := by rw [Link.onReader, List.length_modify, consistent.latest]
  writer := consistent.writer
  shared := by
    intro j r found
    rw [Link.onReader, List.getElem?_modify] at found
    obtain ⟨s, here, rfl⟩ := Option.map_eq_some_iff.mp found
    by_cases same : k = j
    · rw [if_pos same, keeps, consistent.shared j s here]
    · rw [if_neg same, consistent.shared j s here]

private theorem letGo (consistent : l.IsConsistent) (reader : Option Nat) :
    IsConsistent { l with writer := none, reader } where
  flags := consistent.flags
  latest := consistent.latest
  shared := consistent.shared
  writer := nofun

theorem release (consistent : l.IsConsistent) : l.release.IsConsistent := by
  unfold Link.release
  split
  · exact consistent.letGo _
  · refine (consistent.letGo none).onReader _ fun r => ?_
    rw [Reader.stop]
    split <;> rfl

theorem establish (consistent : l.IsConsistent) : l.establish.IsConsistent where
  flags := by simp only [Link.establish, List.length_append, List.length_singleton, consistent.flags]
  latest := by simp only [Link.establish, List.length_append, List.length_singleton, consistent.flags]
  writer := by
    intro k same
    obtain rfl := Option.some.inj same
    exact consistent.flags.symm
  shared := by
    intro k r found
    simp only [Link.establish, List.getElem?_append] at found
    split at found
    · exact consistent.shared k r found
    · rename_i new
      obtain ⟨last, rfl⟩ := List.getElem?_eq_some_iff.mp found
      rw [List.length_singleton] at last
      simp only [List.getElem_singleton, consistent.flags]
      omega

end IsConsistent

private theorem not_holds_of_writer (none : l.writer = none) (k : Nat) : ¬l.Holds k := by
  rintro ⟨writer, -⟩
  cases none.symm.trans writer

private theorem writer_release : l.release.writer = none := by
  unfold release
  split <;> rfl

private theorem readers_release : l.release.readers.length = l.readers.length := by
  unfold release
  split
  · rfl
  · exact List.length_modify ..

private theorem holds_establish (k : Nat) : l.establish.Holds k ↔ k = l.readers.length := by
  unfold Holds establish
  constructor
  · rintro ⟨writer, -⟩
    exact (Option.some.inj writer).symm
  · rintro rfl
    exact ⟨rfl, by simp⟩

/-- The end of a reader matters to a client only if the reader's connection is the one that it writes to. -/
theorem holds_takeDown (consistent : l.IsConsistent) (j k : Nat) :
    (l.takeDown (j + 1)).Holds k ↔ l.Holds k ∧ k ≠ j := by
  unfold Holds takeDown
  constructor
  · rintro ⟨writer, up⟩
    have own := consistent.writer k writer
    by_cases same : k = j
    · rw [← own, same, List.getElem?_set_self'] at up
      cases present : l.flags[j + 1]? <;> simp [present] at up
    · have other : j + 1 ≠ l.flag := by omega
      rw [List.getElem?_set_ne other] at up
      exact ⟨⟨writer, up⟩, same⟩
  · rintro ⟨⟨writer, up⟩, different⟩
    have own := consistent.writer k writer
    have other : j + 1 ≠ l.flag := by omega
    exact ⟨writer, by rwa [List.getElem?_set_ne other]⟩

end Link

namespace StreamClient

/-- What can happen to a client: calls, with what the network answers and with the state of the connection that is
    written to, and what its readers do, each for itself. -/
inductive Event where
  | connect (peer : String) (attempt : Except NetworkFault Unit)
  | disconnect (shutdown : Except StreamFault Unit)
  | send (wire : Sink) (p : Packet)
  | pass (k : Nat) (found : FrameOutcome)
  | halt (k : Nat)

/-- What came of an event: the result of a call, with the number of the connection that a connect opened, if it did; or
    what a reader did. -/
inductive Occurrence where
  | connected (r : Except TransportError Unit) (opened : Option Nat)
  | disconnected (r : Except TransportError Unit)
  | sent (r : Except TransportError Unit) (wire : Sink)
  | passed (k : Nat) (did : Pass)
  | halted (k : Nat)

/-- The connection that a client has opened in a call, if it has more of them after it. -/
def opened? (before after : StreamClient) : Option Nat :=
  if before.link.readers.length < after.link.readers.length then some before.link.readers.length else none

/-- What an event makes of a client. -/
def step (c : StreamClient) : Event → StreamClient × Occurrence
  | .connect peer attempt =>
    let (r, after) := c.connect peer attempt
    (after, .connected r (opened? c after))
  | .disconnect shutdown =>
    let (r, after) := c.disconnect shutdown
    (after, .disconnected r)
  | .send wire p =>
    let (r, wire) := c.sendOver wire p
    (c, .sent r wire)
  | .pass k found =>
    let (after, did) := c.pass k found
    (after, .passed k did)
  | .halt k => (c.halt k, .halted k)

/-- What events make of a client, one after another, and what came of each. -/
def run (c : StreamClient) : List Event → StreamClient × List Occurrence
  | [] => (c, [])
  | e :: events =>
    let (c, o) := c.step e
    let (c, os) := run c events
    (c, o :: os)

namespace Occurrence

/-- A connect succeeded and opened a connection. -/
def Opens (k : Nat) : Occurrence → Prop
  | connected r opened => r = .ok () ∧ opened = some k
  | _ => False

/-- Something after which a client is not connected by a connection any more: another one was opened, the client was
    told to disconnect, or the connection's reader came to its end. -/
def Closes (k : Nat) : Occurrence → Prop
  | connected _ opened => opened.isSome = true
  | disconnected _ => True
  | passed j .ended => j = k
  | _ => False

def opened? : Occurrence → Option Nat
  | connected _ opened => opened
  | _ => none

end Occurrence

/-- Of what came of some events, the latest connection that was opened, if since then the client was not told to
    disconnect and that connection's reader did not come to its end. -/
def IsCurrent (trace : List Occurrence) (k : Nat) : Prop :=
  ∃ before o after, trace = before ++ o :: after ∧ o.Opens k ∧ ∀ x ∈ after, ¬x.Closes k

private theorem isCurrent_snoc {trace : List Occurrence} {o : Occurrence} {k : Nat} :
    IsCurrent (trace ++ [o]) k ↔ o.Opens k ∨ IsCurrent trace k ∧ ¬o.Closes k := by
  constructor
  · rintro ⟨before, x, after, split, opens, kept⟩
    rcases List.eq_nil_or_concat after with rfl | ⟨after, last, rfl⟩
    · obtain ⟨-, same⟩ := List.append_inj' split rfl
      cases same
      exact .inl opens
    · rw [List.concat_eq_append, ← List.cons_append, ← List.append_assoc] at split
      obtain ⟨rfl, same⟩ := List.append_inj' split rfl
      cases same
      rw [List.concat_eq_append] at kept
      obtain ⟨others, last⟩ := List.forall_mem_append.mp kept
      exact .inr ⟨⟨before, x, after, rfl, opens, others⟩, last o (List.mem_singleton.mpr rfl)⟩
  · rintro (opens | ⟨⟨before, x, after, rfl, opens, others⟩, kept⟩)
    · exact ⟨trace, o, [], rfl, opens, nofun⟩
    · refine ⟨before, x, after ++ [o], by rw [List.append_assoc]; rfl, opens, ?_⟩
      exact List.forall_mem_append.mpr ⟨others, List.forall_mem_singleton.mpr kept⟩

variable {c : StreamClient} {peer : String}

private theorem step_connect_connected (connected : c.isConnected = true) (attempt : Except NetworkFault Unit) :
    c.step (.connect peer attempt) = (c, .connected (.ok ()) none) := by
  have same : c.connect peer attempt = (.ok (), c) := if_pos connected
  have none : opened? c c = none := if_neg (Nat.lt_irrefl _)
  simp only [step, same, none]

private theorem step_connect_ok (apart : ¬c.isConnected = true) :
    c.step (.connect peer (.ok ())) =
      ({ c with link := c.link.release.establish }, .connected (.ok ()) (some c.link.readers.length)) := by
  have made : c.connect peer (.ok ()) = (.ok (), { c with link := c.link.release.establish }) := if_neg apart
  have more : opened? c { c with link := c.link.release.establish } = some c.link.readers.length := by
    refine if_pos ?_
    simp only [Link.establish, List.length_append, Link.readers_release]
    exact Nat.lt_succ_self _
  simp only [step, made, more]

private theorem step_connect_error (apart : ¬c.isConnected = true) (fault : NetworkFault) :
    c.step (.connect peer (.error fault)) =
      ({ c with link := c.link.release }, .connected (.error (.connectionFailed peer fault)) none) := by
  have refused : c.connect peer (.error fault) =
      (.error (.connectionFailed peer fault), { c with link := c.link.release }) := if_neg apart
  have none : opened? c { c with link := c.link.release } = none := by
    refine if_neg ?_
    rw [Link.readers_release]
    exact Nat.lt_irrefl _
  simp only [step, refused, none]

private theorem reader_of_liveReader {l : Link} {k : Nat} {r : Reader} (live : l.liveReader? k = some r) :
    l.readers[k]? = some r := by
  unfold Link.liveReader? at live
  split at live
  · rename_i r' here
    split_ifs at live
    rwa [Option.some.inj live] at here
  · cases live

/-- What a pass makes of a link. A reader that is gone does nothing, one that delivers may get lost on the way, and one
    that comes to its end takes down its own flag. -/
theorem pass_link (k : Nat) (found : FrameOutcome) :
    match (c.pass k found).2 with
    | .idle => (c.pass k found).1 = c
    | .delivered _ => (c.pass k found).1.link = c.link ∨ (c.pass k found).1.link = c.link.onReader k .lose
    | .ended => ∃ r, c.link.readers[k]? = some r ∧
        (c.pass k found).1.link = (c.link.onReader k .lose).takeDown r.flag := by
  unfold pass
  cases live : c.link.liveReader? k with
  | none => rfl
  | some r =>
    cases found with
    | ended => exact ⟨r, reader_of_liveReader live, rfl⟩
    | failed e => exact ⟨r, reader_of_liveReader live, rfl⟩
    | packet bytes =>
      by_cases finished : (c.space.deliver bytes).dispatch.ending = .finished
      · exact .inl (if_pos finished)
      · exact .inr (if_neg finished)

/-! ## Histories and links -/

/-- A link that is as the history of its client has it. -/
structure Reflects (trace : List Occurrence) (l : Link) : Prop where
  consistent : l.IsConsistent
  numbers : trace.filterMap Occurrence.opened? = List.range l.readers.length
  current : ∀ k, IsCurrent trace k ↔ l.Holds k

private theorem reflects_new (maxPacket : Nat) (space : AddressSpace) : Reflects [] (new maxPacket space).link := by
  refine ⟨Link.closed_isConsistent, rfl, fun k => ⟨?_, ?_⟩⟩
  · rintro ⟨before, o, after, split, -⟩
    cases before <;> cases split
  · rintro ⟨writer, -⟩
    cases writer

private theorem Reflects.snoc {trace : List Occurrence} {l l' : Link} {o : Occurrence} (reflects : Reflects trace l)
    (consistent : l'.IsConsistent)
    (numbers : List.range l.readers.length ++ o.opened?.toList = List.range l'.readers.length)
    (holds : ∀ k, l'.Holds k ↔ o.Opens k ∨ l.Holds k ∧ ¬o.Closes k) : Reflects (trace ++ [o]) l' where
  consistent := consistent
  numbers := by
    rw [List.filterMap_append, reflects.numbers, ← numbers]
    cases o <;> rfl
  current := by
    intro k
    rw [isCurrent_snoc, reflects.current, holds]

/-- An occurrence that opens and closes nothing, and leaves the connections as they are. -/
theorem Reflects.idle {trace : List Occurrence} {l l' : Link} {o : Occurrence} (reflects : Reflects trace l)
    (consistent : l'.IsConsistent) (readers : l'.readers.length = l.readers.length) (none : o.opened? = none)
    (opens : ∀ k, ¬o.Opens k) (closes : ∀ k, ¬o.Closes k) (holds : ∀ k, l'.Holds k ↔ l.Holds k) :
    Reflects (trace ++ [o]) l' := by
  refine reflects.snoc consistent ?_ fun k => ?_
  · rw [none, readers]
    exact List.append_nil _
  · rw [holds]
    exact ⟨fun held => .inr ⟨held, closes k⟩, fun either => (either.resolve_left (opens k)).1⟩

private theorem not_holds_of_apart (apart : ¬c.isConnected = true) (k : Nat) : ¬c.link.Holds k :=
  fun held => apart (Link.isOpen_iff.mpr ⟨k, held⟩)

/-- An event makes of a link that reflects the history so far one that reflects what came of the event as well. -/
theorem step_reflects {trace : List Occurrence} (reflects : Reflects trace c.link) (e : Event) :
    Reflects (trace ++ [(c.step e).2]) (c.step e).1.link := by
  have consistent := reflects.consistent
  cases e with
  | connect peer attempt =>
    by_cases connected : c.isConnected = true
    · rw [step_connect_connected connected]
      refine reflects.idle consistent rfl rfl ?_ ?_ fun k => Iff.rfl
      · rintro k ⟨-, same⟩
        cases same
      · exact fun k => Bool.false_ne_true
    · have closed := not_holds_of_apart connected
      cases attempt with
      | ok =>
        rw [step_connect_ok connected]
        refine reflects.snoc consistent.release.establish ?_ fun k => ?_
        · simp only [Link.establish, List.length_append, List.length_singleton, Link.readers_release]
          exact List.range_succ.symm
        · rw [Link.holds_establish, Link.readers_release]
          constructor
          · rintro rfl
            exact .inl ⟨rfl, rfl⟩
          · rintro (⟨-, same⟩ | ⟨held, -⟩)
            · exact (Option.some.inj same).symm
            · exact absurd held (closed k)
      | error fault =>
        rw [step_connect_error connected]
        refine reflects.idle consistent.release Link.readers_release rfl ?_ ?_ fun k => ?_
        · rintro k ⟨-, same⟩
          cases same
        · exact fun k => Bool.false_ne_true
        · exact iff_of_false (Link.not_holds_of_writer Link.writer_release k) (closed k)
  | disconnect shutdown =>
    refine reflects.snoc (consistent.release.takeDown _) ?_ fun k => ?_
    · refine (List.append_nil _).trans ?_
      exact congrArg List.range Link.readers_release.symm
    · have none : (c.disconnect shutdown).2.link.writer = none := (Link.writer_release : c.link.release.writer = none)
      refine iff_of_false (Link.not_holds_of_writer none k) ?_
      rintro (opens | ⟨-, kept⟩)
      · exact opens
      · exact kept trivial
  | send wire p => exact reflects.idle consistent rfl rfl (fun _ => id) (fun _ => id) fun _ => Iff.rfl
  | halt k =>
    refine reflects.idle (consistent.onReader k fun r => ?_) (List.length_modify ..) rfl (fun _ => id) (fun _ => id)
      fun _ => Iff.rfl
    rw [Reader.halt]
    split <;> rfl
  | pass k found =>
    have did := pass_link (c := c) k found
    simp only [step]
    cases outcome : (c.pass k found).2 with
    | idle =>
      rw [outcome] at did
      rw [did]
      exact reflects.idle consistent rfl rfl (fun _ => id) (fun _ => id) fun _ => Iff.rfl
    | delivered d =>
      rw [outcome] at did
      rcases did with same | lost
      · rw [same]
        exact reflects.idle consistent rfl rfl (fun _ => id) (fun _ => id) fun _ => Iff.rfl
      · rw [lost]
        exact reflects.idle (consistent.onReader k fun _ => rfl) (List.length_modify ..) rfl (fun _ => id)
          (fun _ => id) fun _ => Iff.rfl
    | ended =>
      rw [outcome] at did
      obtain ⟨r, here, same⟩ := did
      rw [same, consistent.shared k r here]
      have lost : (c.link.onReader k .lose).IsConsistent := consistent.onReader k fun _ => rfl
      refine reflects.snoc (lost.takeDown _) ?_ fun j => ?_
      · refine (List.append_nil _).trans ?_
        exact congrArg List.range (List.length_modify ..).symm
      · rw [Link.holds_takeDown lost]
        constructor
        · rintro ⟨held, other⟩
          exact .inr ⟨held, fun same => other same.symm⟩
        · rintro (opens | ⟨held, other⟩)
          · exact opens.elim
          · exact ⟨held, fun same => other same.symm⟩

private theorem run_reflects {trace : List Occurrence} (reflects : Reflects trace c.link) (events : List Event) :
    Reflects (trace ++ (c.run events).2) (c.run events).1.link := by
  induction events generalizing c trace with
  | nil => rwa [run, List.append_nil]
  | cons e events ih =>
    have later := ih (step_reflects reflects e)
    rwa [List.append_assoc] at later

/-! ## Receiving -/

private theorem liveReader_lose (l : Link) (k : Nat) : (l.onReader k .lose).liveReader? k = none := by
  unfold Link.liveReader? Link.onReader
  simp only [List.getElem?_modify_eq]
  cases l.readers[k]? with
  | none => rfl
  | some r => exact if_pos rfl

private theorem passAll_gone (c : StreamClient) {k : Nat} (gone : c.link.liveReader? k = none)
    (founds : List FrameOutcome) :
    c.passAll k founds = (c, []) := by
  induction founds with
  | nil => rfl
  | cons found founds ih =>
    have idle : c.pass k found = (c, .idle) := by simp only [pass, gone]
    simp only [passAll, idle, ih]

private theorem pass_end {k : Nat} {r : Reader} (live : c.link.liveReader? k = some r) {found : FrameOutcome}
    (other : ∀ packet, found ≠ .packet packet) :
    c.pass k found = ({ c with link := (c.link.onReader k .lose).takeDown r.flag }, .ended) := by
  cases found with
  | packet packet => exact absurd rfl (other packet)
  | ended | failed => simp only [pass, live]

/-- The reader of a connection delivers what arrives as a server does, whatever handlers do. If all of them finish it
    comes to its end, and takes down its flag. -/
theorem passAll_readFrames {k : Nat} {r : Reader} (live : c.link.liveReader? k = some r) {arriving : Stream} {passes : Nat}
    (enough : (arriving.packets c.maxPacket).length < passes) :
    let delivered := Server.deliverUntilAborted c.space (arriving.packets c.maxPacket)
    ∃ link, c.passAll k ((readFrames c.maxPacket passes arriving).map (·.1)) =
        (⟨c.maxPacket, delivered.1, link⟩, delivered.2) ∧
      ((∀ d ∈ delivered.2, d.dispatch.ending = .finished) → link = (c.link.onReader k .lose).takeDown r.flag) := by
  induction passes generalizing c arriving with
  | zero => exact absurd enough (Nat.not_lt_zero _)
  | succ passes ih =>
    rw [readFrames, List.map_cons]
    cases read : readFrame c.maxPacket arriving with | mk found rest
    by_cases framed : ∃ packet, found = .packet packet
    · obtain ⟨packet, rfl⟩ := framed
      have packets := Stream.packets_of_readFrame read
      rw [packets, List.length_cons] at enough
      rw [packets]
      by_cases finished : (c.space.deliver packet).dispatch.ending = .finished
      · have delivers : c.pass k (.packet packet) =
            ({ c with space := (c.space.deliver packet).dispatch.space }, .delivered (c.space.deliver packet)) := by
          simp only [pass, live, if_pos finished]
        obtain ⟨link, later, ends⟩ :=
          @ih { c with space := (c.space.deliver packet).dispatch.space } live rest (Nat.lt_of_succ_lt_succ enough)
        refine ⟨link, ?_, fun all => ?_⟩
        · simp only [passAll, delivers, later, Server.deliverUntilAborted, if_pos finished]
        · simp only [Server.deliverUntilAborted, if_pos finished] at all
          exact ends (List.forall_mem_cons.mp all).2
      · have breaks : c.pass k (.packet packet) =
            (⟨c.maxPacket, (c.space.deliver packet).dispatch.space, c.link.onReader k .lose⟩,
              .delivered (c.space.deliver packet)) := by
          simp only [pass, live, if_neg finished]
        have gone := passAll_gone ⟨c.maxPacket, (c.space.deliver packet).dispatch.space, c.link.onReader k .lose⟩
          (liveReader_lose c.link k)
        refine ⟨c.link.onReader k .lose, ?_, fun all => ?_⟩
        · simp only [passAll, breaks, gone, Server.deliverUntilAborted, if_neg finished]
        · simp only [Server.deliverUntilAborted, if_neg finished] at all
          exact absurd (all _ List.mem_cons_self) finished
    · have other : ∀ packet, found ≠ .packet packet := fun packet same => framed ⟨packet, same⟩
      have nothing : arriving.packets c.maxPacket = [] := by
        refine Stream.packets_of_not_readFrame fun packet rest' same => ?_
        rw [read] at same
        exact other packet (congrArg Prod.fst same)
      have gone := passAll_gone { c with link := (c.link.onReader k .lose).takeDown r.flag } (liveReader_lose c.link k)
      refine ⟨_, ?_, fun _ => rfl⟩
      simp only [passAll, pass_end live other, gone, nothing, Server.deliverUntilAborted]

private theorem deliverAll_finished {s : AddressSpace} (records : s.OnlyRecords) (packets : List (List UInt8)) :
    ∀ d ∈ (s.deliverAll packets).2, d.dispatch.ending = .finished := by
  induction packets generalizing s with
  | nil => nofun
  | cons bytes packets ih =>
    rw [AddressSpace.deliverAll_cons]
    exact List.forall_mem_cons.mpr ⟨(AddressSpace.deliver_isDelivery records bytes).ending, ih (records.deliver bytes)⟩

private theorem packetsWithin_length (max steps : Nat) (s : Stream) : (s.packetsWithin max steps).length ≤ steps := by
  induction steps generalizing s with
  | zero => exact Nat.le_refl 0
  | succ steps ih =>
    rw [Stream.packetsWithin]
    split
    · exact Nat.succ_le_succ (ih _)
    · exact Nat.zero_le _

/-- What arrives on a new connection is delivered as on a server, and at the end of it the client is not connected any
    more: the peer has closed, or it has sent a frame that is too large or cut short. -/
theorem receiveAll_establish (consistent : c.link.IsConsistent) (records : c.space.OnlyRecords) (arriving : Stream) :
    let fresh : StreamClient := { c with link := c.link.establish }
    (fresh.receiveAll arriving).1.isConnected = false ∧
      (fresh.receiveAll arriving).2 = (c.space.deliverAll (arriving.packets c.maxPacket)).2 := by
  intro fresh
  have live : fresh.link.liveReader? c.link.readers.length = some ⟨c.link.flags.length, .running⟩ := by
    simp [fresh, Link.liveReader?, Link.establish]
  have enough : (arriving.packets c.maxPacket).length < arriving.remaining + 1 :=
    Nat.lt_succ_of_le (packetsWithin_length ..)
  obtain ⟨link, received, ends⟩ := passAll_readFrames live enough
  change fresh.receiveAll arriving = _ at received
  have delivered := Server.deliverUntilAborted_recording records (arriving.packets c.maxPacket)
  have taken := ends (by rw [delivered]; exact deliverAll_finished records _)
  rw [received]
  refine ⟨?_, congrArg Prod.snd delivered⟩
  have lost : (fresh.link.onReader c.link.readers.length .lose).IsConsistent :=
    consistent.establish.onReader _ fun _ => rfl
  rw [Bool.eq_false_iff]
  intro connected
  obtain ⟨k, held⟩ := Link.isOpen_iff.mp connected
  rw [taken, consistent.flags, Link.holds_takeDown lost] at held
  exact held.2 ((Link.holds_establish k).mp held.1)

/-- Whether a client is connected follows from its history, and what its calls do follows from whether it is connected. -/
structure FollowsHistory (trace : List Occurrence) (c : StreamClient) : Prop where
  connected_iff : c.isConnected = true ↔ ∃ k, IsCurrent trace k
  /-- Connections are numbered as they were opened. -/
  numbers : trace.filterMap Occurrence.opened? = List.range c.link.readers.length
  connect_again : c.isConnected = true → ∀ peer attempt, c.step (.connect peer attempt) = (c, .connected (.ok ()) none)
  connect_ok : c.isConnected = false → ∀ peer, (c.step (.connect peer (.ok ()))).1.isConnected = true ∧
    (c.step (.connect peer (.ok ()))).2 = .connected (.ok ()) (some c.link.readers.length)
  connect_error : c.isConnected = false → ∀ peer fault, (c.step (.connect peer (.error fault))).1.isConnected = false ∧
    (c.step (.connect peer (.error fault))).2 = .connected (.error (.connectionFailed peer fault)) none
  disconnects : ∀ shutdown, (c.disconnect shutdown).1 = .ok () ∧ (c.disconnect shutdown).2.isConnected = false ∧
    ∀ again, (c.disconnect shutdown).2.disconnect again = c.disconnect shutdown
  /-- The reader of an earlier connection has no say in whether the client is connected. -/
  stale : ∀ k, ¬IsCurrent trace k → ∀ found, (c.pass k found).1.isConnected = c.isConnected
  refuses_iff : ∀ wire p, (c.sendOver wire p).1 = .error .notConnected ↔ c.isConnected = false
  /-- A client that is not connected looks at no packet, also at none that cannot be encoded, and writes nothing. -/
  silent : c.isConnected = false → ∀ wire p, c.sendOver wire p = (.error .notConnected, wire)
  /-- What arrives on a new connection up to its end is delivered, and the client is not connected then. -/
  ends : c.isConnected = false → c.space.OnlyRecords → ∀ peer arriving,
    let received := (c.step (.connect peer (.ok ()))).1.receiveAll arriving
    received.1.isConnected = false ∧ received.2 = (c.space.deliverAll (arriving.packets c.maxPacket)).2

private theorem release_of_none {l : Link} (writer : l.writer = none) (reader : l.reader = none) : l.release = l := by
  cases l
  cases writer
  cases reader
  rfl

private theorem disconnect_disconnect (c : StreamClient) (shutdown again : Except StreamFault Unit) :
    (c.disconnect shutdown).2.disconnect again = c.disconnect shutdown := by
  have reader : c.link.release.reader = none := by
    unfold Link.release
    split
    · assumption
    · rfl
  have released : (c.link.release.takeDown c.link.flag).release = c.link.release.takeDown c.link.flag :=
    release_of_none Link.writer_release reader
  have flag : (c.link.release.takeDown c.link.flag).flag = c.link.flag := by
    unfold Link.takeDown Link.release
    split <;> rfl
  simp only [disconnect, released, flag]
  simp only [Link.takeDown, List.set_set]

private theorem sendOver_apart (apart : ¬c.isConnected = true) (wire : Sink) (p : Packet) :
    c.sendOver wire p = (.error .notConnected, wire) := if_neg apart

private theorem sendOver_ne_notConnected (connected : c.isConnected = true) (wire : Sink) (p : Packet) :
    (c.sendOver wire p).1 ≠ .error .notConnected := by
  unfold sendOver
  rw [if_pos connected]
  cases out : outgoing c.maxPacket p with
  | ok bytes =>
    simp only
    split <;> exact fun same => nomatch same
  | error e =>
    rintro same
    obtain rfl : e = .notConnected := Except.error.inj same
    unfold outgoing at out
    split at out
    · cases out
    · split_ifs at out
      cases out

/-- The reader of another connection than the one that a client writes to leaves it connected or not, as it was. -/
theorem pass_isConnected {k : Nat} (consistent : c.link.IsConsistent) (other : ¬c.link.Holds k) (found : FrameOutcome) :
    (c.pass k found).1.isConnected = c.isConnected := by
  have did := pass_link (c := c) k found
  cases outcome : (c.pass k found).2 with
  | idle =>
    rw [outcome] at did
    rw [did]
  | delivered d =>
    rw [outcome] at did
    rcases did with same | lost
    · rw [isConnected, isConnected, same]
    · rw [isConnected, isConnected, lost]
      rfl
  | ended =>
    rw [outcome] at did
    obtain ⟨r, here, same⟩ := did
    have lost : (c.link.onReader k .lose).IsConsistent := consistent.onReader k fun _ => rfl
    rw [Bool.eq_iff_iff, isConnected, isConnected, Link.isOpen_iff, Link.isOpen_iff, same, consistent.shared k r here]
    refine exists_congr fun j => ?_
    rw [Link.holds_takeDown lost]
    refine ⟨And.left, fun held => ⟨held, ?_⟩⟩
    rintro rfl
    exact other held

private theorem followsHistory {trace : List Occurrence} (reflects : Reflects trace c.link) :
    FollowsHistory trace c where
  connected_iff := by
    rw [isConnected, Link.isOpen_iff]
    exact exists_congr fun k => (reflects.current k).symm
  numbers := reflects.numbers
  connect_again := fun connected _ attempt => step_connect_connected connected attempt
  connect_ok := by
    intro apart peer
    rw [step_connect_ok (by simp [apart])]
    exact ⟨Link.isOpen_iff.mpr ⟨_, (Link.holds_establish _).mpr rfl⟩, rfl⟩
  connect_error := by
    intro apart peer fault
    rw [step_connect_error (by simp [apart])]
    refine ⟨?_, rfl⟩
    rw [isConnected, Link.isOpen, Link.writer_release]
    rfl
  disconnects := by
    intro shutdown
    refine ⟨rfl, ?_, disconnect_disconnect c shutdown⟩
    have none : (c.disconnect shutdown).2.link.writer = none := (Link.writer_release : c.link.release.writer = none)
    rw [isConnected, Link.isOpen, none]
    rfl
  stale := fun k other found => pass_isConnected reflects.consistent (fun held => other ((reflects.current k).mpr held)) found
  refuses_iff := by
    intro wire p
    rw [Bool.eq_false_iff]
    exact ⟨fun refused connected => sendOver_ne_notConnected connected wire p refused,
      fun apart => congrArg Prod.fst (sendOver_apart apart wire p)⟩
  silent := fun apart => sendOver_apart (by simp [apart])
  ends := by
    intro apart records peer arriving
    rw [step_connect_ok (by simp [apart])]
    exact @receiveAll_establish { c with link := c.link.release } reflects.consistent.release records arriving

/-- Whatever is called on a new client, and whatever the readers of its connections do, each for itself and in any order:
    the client is connected exactly if some connect opened a connection, and since the latest one that did there was
    neither a disconnect nor the end of that connection's reader. A connect while connected opens nothing and changes
    nothing, one that fails leaves the client not connected, and a disconnect always succeeds and can be repeated. The
    readers of earlier connections change nothing about it. Sending is refused for want of a connection exactly if the
    client is not connected, whatever the packet, and then nothing is written. -/
theorem run_followsHistory (maxPacket : Nat) (space : AddressSpace) (events : List Event) :
    FollowsHistory ((new maxPacket space).run events).2 ((new maxPacket space).run events).1 :=
  followsHistory (run_reflects (reflects_new maxPacket space) events)

/-- The reader of the first connection comes to its end only after the second was opened, and the client stays
    connected; the reader of the second then ends that. -/
theorem run_followsHistory_late :
    let calls : List Event := [.connect "peer" (.ok ()), .disconnect (.ok ()), .connect "peer" (.ok ()), .pass 0 .ended]
    let (c, trace) := (new 16 .empty).run calls
    IsCurrent trace 1 ∧ c.isConnected = true ∧ (c.step (.pass 1 (.failed (.packetTooLarge 17 16)))).1.isConnected = false := by
  intro calls
  have history := run_followsHistory 16 .empty calls
  have current : IsCurrent ((new 16 .empty).run calls).2 1 :=
    ⟨[.connected (.ok ()) (some 0), .disconnected (.ok ())], .connected (.ok ()) (some 1), [.passed 0 .ended], rfl,
      ⟨rfl, rfl⟩, by simp [Occurrence.Closes]⟩
  exact ⟨current, history.connected_iff.mpr ⟨1, current⟩, rfl⟩

end StreamClient

end OpenSound
