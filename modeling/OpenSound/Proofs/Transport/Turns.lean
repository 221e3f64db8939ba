import OpenSound.Proofs.Transport.Serving

/-!
# The order of turns

Connections that take turns deliver what each of them delivers, in the order of the turns. Where handlers only record,
the packets of each connection come from the front of what arrives on it, in order, and all of them come if it gets
enough turns; nothing else is handled.
-/

namespace OpenSound

open AddressSpace

namespace Server

private theorem takeTurn_deliveries (s : Server) (c : Connection) : c.deliveries <+: (s.takeTurn c).2.deliveries := by
  unfold takeTurn
  split
  · exact List.prefix_rfl
  split
  · exact List.prefix_append ..
  · exact List.prefix_rfl

/-- What turns add to a connection is what they deliver of it, in the order of the turns. -/
theorem serveTurns_deliveries (s : Server) (turns : List Nat) {connections : List Connection} {i : Nat} {c : Connection}
    (found : connections[i]? = some c) :
    ∃ c', (s.serveTurns connections turns).2[i]? = some c' ∧ c'.deliveries =
      c.deliveries ++ ((s.deliveriesInTurns connections turns).filter (·.1 = i)).map (·.2) := by
  induction turns generalizing s connections c with
  | nil => exact ⟨c, found, (List.append_nil _).symm⟩
  | cons j turns ih =>
    rw [serveTurns, deliveriesInTurns]
    split
    · exact ih s found
    · rename_i d present
      have grown := List.prefix_iff_eq_append.mp (s.takeTurn_deliveries d)
      simp only [List.filter_append, List.map_append, List.filter_map, Function.comp_def, List.map_map]
      by_cases own : j = i
      · subst own
        obtain rfl : c = d := Option.some.inj (found.symm.trans present)
        have inside : j < connections.length := (List.getElem?_eq_some_iff.mp found).1
        obtain ⟨c', at_j, deliveries⟩ := ih (s.takeTurn c).1 (List.getElem?_set_self inside)
        refine ⟨c', at_j, ?_⟩
        rw [deliveries, ← grown]
        simp
      · have kept : (connections.set j (s.takeTurn d).2)[i]? = some c := by
          rw [List.getElem?_set_ne own]
          exact found
        obtain ⟨c', at_i, deliveries⟩ := ih (s.takeTurn d).1 kept
        exact ⟨c', at_i, by simpa [own] using deliveries⟩

/-- The packets that are still ahead of a connection. -/
def Connection.ahead (max : Nat) (c : Connection) : List (List UInt8) :=
  match c.arriving with
  | some rest => rest.packets max
  | none => []

/-- A turn delivers the next packet that is ahead of its connection, and nothing only where there is none. -/
theorem takeTurn_ahead {s : Server} (records : s.space.OnlyRecords) (c : Connection) :
    ∃ now ds, List.Forall₂ (IsDelivery s.space.methods) now ds ∧ (s.takeTurn c).2.deliveries = c.deliveries ++ ds ∧
      c.ahead s.maxPacket = now ++ (s.takeTurn c).2.ahead s.maxPacket ∧ (now = [] → c.ahead s.maxPacket = []) := by
  obtain ⟨stream, deliveries⟩ := c
  cases stream with
  | none => exact ⟨[], [], .nil, by simp [takeTurn], rfl, fun _ => rfl⟩
  | some rest =>
    simp only [takeTurn, Connection.ahead]
    split
    · rename_i packet rest' read
      have delivery := deliver_isDelivery records packet
      refine ⟨[packet], [s.space.deliver packet], .cons delivery .nil, rfl, ?_, by simp⟩
      rw [if_pos delivery.ending, Stream.packets_of_readFrame read]
      rfl
    · rename_i none
      have done := Stream.packets_of_not_readFrame none
      exact ⟨[], [], .nil, by simp, done, fun _ => done⟩

/-- The packets of a connection among those that were handled in turns, each with the index of its connection. -/
def packetsOf (i : Nat) (handled : List (Nat × List UInt8)) : List (List UInt8) :=
  (handled.filter (·.1 = i)).map (·.2)

private theorem packetsOf_append (i : Nat) (handled later : List (Nat × List UInt8)) :
    packetsOf i (handled ++ later) = packetsOf i handled ++ packetsOf i later := by
  rw [packetsOf, List.filter_append, List.map_append]
  rfl

private theorem packetsOf_own (i : Nat) (packets : List (List UInt8)) : packetsOf i (packets.map (i, ·)) = packets := by
  simp [packetsOf, List.filter_map, Function.comp_def]

private theorem packetsOf_other {i j : Nat} (other : j ≠ i) (packets : List (List UInt8)) :
    packetsOf i (packets.map (j, ·)) = [] := by
  simp [packetsOf, List.filter_map, Function.comp_def, other]

/-- Packets that are handled of streams which take turns: of each stream the ones at its front, in order, and all of them
    if it got more turns than there are. -/
structure TakenInTurns (max : Nat) (streams : List Stream) (turns : List Nat) (handled : List (Nat × List UInt8)) :
    Prop where
  front : ∀ i, packetsOf i handled <+: (streams.getD i []).packets max
  whole : ∀ i, ((streams.getD i []).packets max).length < turns.count i →
    packetsOf i handled = (streams.getD i []).packets max

/-- Of a single stream with enough turns just its packets are handled. -/
theorem TakenInTurns.single {max : Nat} {arriving : Stream} {turns : List Nat} {handled : List (Nat × List UInt8)}
    (taken : TakenInTurns max [arriving] turns handled) (enough : (arriving.packets max).length < turns.count 0) :
    handled.map (·.2) = arriving.packets max := by
  have only : ∀ x ∈ handled, x.1 = 0 := by
    intro x member
    by_contra other
    have none : [arriving].getD x.1 [] = [] := by
      rw [List.getD_eq_getElem?_getD, List.getElem?_eq_none (Nat.one_le_iff_ne_zero.mpr other)]
      rfl
    have front := taken.front x.1
    have here : x.2 ∈ packetsOf x.1 handled :=
      List.mem_map_of_mem (List.mem_filter.mpr ⟨member, decide_eq_true rfl⟩)
    rw [none] at front
    rw [List.prefix_nil.mp front] at here
    cases here
  have whole := taken.whole 0 enough
  rwa [packetsOf, List.filter_eq_self.mpr fun x member => decide_eq_true (only x member)] at whole

/-- The packets that are ahead of the connection at an index, if there is one. -/
def aheadAt (max : Nat) (connections : List Connection) (i : Nat) : List (List UInt8) :=
  (connections[i]?.map (·.ahead max)).getD []

/-- In whatever order connections get their turns, the packets that are handled come from the front of what is ahead of
    each, in order, and are all of it where there were enough turns. -/
theorem deliveriesInTurns_recording {s : Server} (records : s.space.OnlyRecords) (connections : List Connection)
    (turns : List Nat) :
    ∃ handled, List.Forall₂ (fun packet d => IsDelivery s.space.methods packet.2 d.2) handled
        (s.deliveriesInTurns connections turns) ∧
      ∀ i, packetsOf i handled <+: aheadAt s.maxPacket connections i ∧
        ((aheadAt s.maxPacket connections i).length < turns.count i →
          packetsOf i handled = aheadAt s.maxPacket connections i) := by
  induction turns generalizing s connections with
  | nil => exact ⟨[], .nil, fun i => ⟨List.nil_prefix, fun enough => absurd enough (Nat.not_lt_zero _)⟩⟩
  | cons j turns ih =>
    rw [deliveriesInTurns]
    split
    · rename_i missing
      obtain ⟨handled, delivered, each⟩ := ih records connections
      refine ⟨handled, delivered, fun i => ⟨(each i).1, fun enough => ?_⟩⟩
      by_cases own : j = i
      · subst own
        have none : aheadAt s.maxPacket connections j = [] := by rw [aheadAt, missing]; rfl
        rw [none]
        exact List.prefix_nil.mp (none ▸ (each j).1)
      · rw [List.count_cons_of_ne own] at enough
        exact (each i).2 enough
    · rename_i c present
      -- the turn handles the packets now; the limit and the methods outlast it, so what follows is handled by the same ones
      obtain ⟨now, ds, new, grown, ahead, stuck⟩ := takeTurn_ahead records c
      obtain ⟨limit, methods⟩ := takeTurn_registry records c
      obtain ⟨handled, delivered, each⟩ :=
        ih (takeTurn_onlyRecords records c) (connections.set j (s.takeTurn c).2)
      rw [limit] at each
      rw [methods] at delivered
      simp only [grown, List.drop_left]
      refine ⟨now.map (j, ·) ++ handled, List.rel_append ?_ delivered, fun i => ?_⟩
      · exact List.forall₂_map_left_iff.mpr (List.forall₂_map_right_iff.mpr new)
      have later := each i
      rw [packetsOf_append]
      by_cases own : j = i
      · subst own
        have inside : j < connections.length := (List.getElem?_eq_some_iff.mp present).1
        have before : aheadAt s.maxPacket connections j = now ++ (s.takeTurn c).2.ahead s.maxPacket := by
          rw [aheadAt, present, ← ahead]
          rfl
        rw [aheadAt, List.getElem?_set_self inside, Option.map_some, Option.getD_some] at later
        obtain ⟨front, whole⟩ := later
        rw [packetsOf_own, before, List.count_cons_self]
        refine ⟨(List.prefix_append_right_inj now).mpr front, fun enough => ?_⟩
        rw [List.length_append] at enough
        cases now with
        | nil =>
          -- a turn that handles nothing has found the end of its connection
          have none : (s.takeTurn c).2.ahead s.maxPacket = [] := ahead.symm.trans (stuck rfl)
          rw [none] at front ⊢
          rw [List.prefix_nil.mp front]
        | cons packet now =>
          rw [List.length_cons] at enough
          rw [whole (by omega)]
      · rw [packetsOf_other own, List.nil_append, List.count_cons_of_ne own]
        rwa [aheadAt, List.getElem?_set_ne own] at later

end Server

end OpenSound
