import OpenSound.Proofs.AddressSpace.Timeline
import OpenSound.Wire.Packet

/-!
# Histories of address spaces

An address space is used by calls one after another: handlers are registered, messages, packets and received bytes are
dispatched, and snapshots of the methods are taken. Handlers do the same on their own, and some break off. Through all
of it the methods are what was registered, in the order in which that happened.
-/

namespace OpenSound.AddressSpace

open Effect (registrations)

/-- A use of an address space from outside. -/
inductive Call where
  | register (pattern : String) (h : Handler)
  | dispatch (m : Message)
  | dispatchPacket (p : Packet)
  | dispatchBytes (bytes : List UInt8)
  | snapshot

/-- An address space, and all that happened to it, in the order in which it began. -/
structure History where
  space : AddressSpace
  events : List Effect

/-- What the dispatch of a packet comes to, with all that happened inside it. Nothing comes of a bundle. -/
def Dispatch.events (d : Dispatch) : Packet → List Effect
  | .message m => .dispatched m d.invocations d.count d.ending :: Invocation.timelineAll d.invocations
  | .bundle .. => []

namespace History

def dispatchPacket (levels : Nat) (h : History) (p : Packet) : History :=
  let d := dispatchPacketWithin levels h.space p
  ⟨d.space, h.events ++ d.events p⟩

/-- Carries out a call, with at most a number of dispatches inside one another. -/
def call (levels : Nat) (h : History) : Call → History
  | .register pattern handler =>
    match h.space.register pattern handler with
    | .ok s => ⟨s, h.events ++ [attempt pattern handler]⟩
    | .error _ => ⟨h.space, h.events ++ [attempt pattern handler]⟩
  | .dispatch m => h.dispatchPacket levels (.message m)
  | .dispatchPacket p => h.dispatchPacket levels p
  | .dispatchBytes bytes =>
    match Packet.decode bytes with
    | .ok p => h.dispatchPacket levels p
    | .error _ => h
  | .snapshot => ⟨h.space, h.events ++ [.looked h.space.methods]⟩

/-- Carries out calls in order on a space that is empty at first. -/
def record (levels : Nat) (memory : List UInt8) (calls : List Call) : History :=
  calls.foldl (call levels) ⟨startingWith memory, []⟩

/-- What is reported of the registered methods, now and at each moment before, is what was registered by then. -/
structure IsFaithful (h : History) : Prop where
  methods : h.space.methods = registrations h.events
  patterns : h.space.patterns = (registrations h.events).map fun t => t.pattern.text
  size : h.space.size = (registrations h.events).length
  isEmpty : h.space.isEmpty = true ↔ registrations h.events = []
  compiled : ∀ t ∈ h.space.methods, Pattern.compile t.pattern.text = .ok t.pattern
  refused : ∀ e, .refused e ∈ h.events → ∃ pattern fault, Pattern.compile pattern = .error fault ∧
    e = .invalidPattern pattern fault
  snapshots : ∀ before snapshot after, h.events = before ++ .looked snapshot :: after →
    snapshot = registrations before ∧ snapshot <+: h.space.methods

private theorem register_space (h : History) (levels : Nat) (pattern : String) (handler : Handler) :
    (h.call levels (.register pattern handler)).space =
      match Pattern.compile pattern with
      | .ok p => h.space.add ⟨p, handler⟩
      | .error _ => h.space := by
  cases compiled : Pattern.compile pattern <;> simp [call, register, method, compiled]

private theorem dispatchPacket_grows (levels : Nat) (h : History) (p : Packet) :
    Grows h.space ((dispatchPacketWithin levels h.space p).events p) (h.dispatchPacket levels p).space := by
  cases p with
  | message m =>
    obtain ⟨own, leads⟩ := dispatchWithin_isSound levels h.space m
    exact .dispatched own leads.toGrows
  | bundle t ps => exact .refl h.space

/-- Every call adds events by which the methods grow. -/
theorem call_grows (levels : Nat) (h : History) (c : Call) : ∃ events,
    (h.call levels c).events = h.events ++ events ∧ Grows h.space events (h.call levels c).space := by
  cases c with
  | register pattern handler =>
    have space := h.register_space levels pattern handler
    refine ⟨[attempt pattern handler], ?_, ?_⟩
    · rw [call]
      split <;> rfl
    · cases compiled : Pattern.compile pattern with
      | ok p =>
        simp only [compiled] at space
        have fits := Pattern.text_of_compile compiled ▸ compiled
        simp only [attempt, method, compiled]
        exact .single (by rw [space]; rfl) fits
      | error fault =>
        simp only [compiled] at space
        simp only [attempt, method, compiled]
        exact .single (by simp [space, Effect.method?]) ⟨pattern, fault, compiled, rfl⟩
  | dispatch m => exact ⟨_, rfl, h.dispatchPacket_grows levels (.message m)⟩
  | dispatchPacket p => exact ⟨_, rfl, h.dispatchPacket_grows levels p⟩
  | dispatchBytes bytes =>
    cases decoded : Packet.decode bytes with
    | error e => exact ⟨[], by simp [call, decoded], by simpa [call, decoded] using Grows.refl h.space⟩
    | ok p =>
      simp only [call, decoded]
      exact ⟨_, rfl, h.dispatchPacket_grows levels p⟩
  | snapshot => exact ⟨[.looked h.space.methods], rfl, .single (by simp [call, Effect.method?]) rfl⟩

private theorem foldl_call_grows (levels : Nat) (calls : List Call) (h : History) : ∃ events,
    (calls.foldl (call levels) h).events = h.events ++ events ∧
      Grows h.space events (calls.foldl (call levels) h).space := by
  induction calls generalizing h with
  | nil => exact ⟨[], by simp, .refl h.space⟩
  | cons c calls ih =>
    obtain ⟨first, firstEvents, firstGrows⟩ := h.call_grows levels c
    obtain ⟨others, otherEvents, othersGrow⟩ := ih (h.call levels c)
    refine ⟨first ++ others, ?_, firstGrows.trans othersGrow⟩
    rw [List.foldl_cons, otherEvents, firstEvents, List.append_assoc]

private theorem record_grows (levels : Nat) (memory : List UInt8) (calls : List Call) :
    Grows (startingWith memory) (record levels memory calls).events (record levels memory calls).space := by
  obtain ⟨events, same, grows⟩ := foldl_call_grows levels calls ⟨startingWith memory, []⟩
  rw [List.nil_append] at same
  exact same ▸ grows

/-- Events by which an empty space grows tell all that is reported of its methods. -/
theorem isFaithful_of_grows {memory : List UInt8} {h : History} (grows : Grows (startingWith memory) h.events h.space) :
    IsFaithful h := by
  have methods : h.space.methods = registrations h.events := grows.methods
  refine ⟨methods, by rw [AddressSpace.patterns, methods], by rw [AddressSpace.size, methods], ?_,
    methods ▸ grows.fits.compiled, ?_, ?_⟩
  · rw [AddressSpace.isEmpty, AddressSpace.size, methods, beq_iff_eq, List.length_eq_zero_iff]
  · intro e happened
    obtain ⟨before, after, split⟩ := List.append_of_mem happened
    exact grows.fits before _ after split
  · intro before snapshot after split
    have fits : snapshot = registrations before := grows.fits before _ after split
    refine ⟨fits, ?_⟩
    rw [fits, methods, split, registrations_append]
    exact List.prefix_append _ _

/-- After any calls, with handlers that register, dispatch and break off as they like, the methods are exactly what was
    registered from outside and by handlers, in the order in which that happened, and every report and every snapshot
    says so for its moment. Further calls keep the methods in front, and a pattern that is registered adds its method
    behind them if it compiles and nothing otherwise. -/
theorem record_isFaithful (levels : Nat) (memory : List UInt8) (calls later : List Call) :
    IsFaithful (record levels memory calls) ∧
    (record levels memory calls).events <+: (record levels memory (calls ++ later)).events ∧
    (record levels memory calls).space.methods <+: (record levels memory (calls ++ later)).space.methods ∧
    ∀ pattern handler, (record levels memory (calls ++ [.register pattern handler])).space.methods =
      (record levels memory calls).space.methods ++
        match Pattern.compile pattern with
        | .ok p => [⟨p, handler⟩]
        | .error _ => [] := by
  have more (next : List Call) : record levels memory (calls ++ next) =
      next.foldl (call levels) (record levels memory calls) := List.foldl_append
  obtain ⟨events, same, grows⟩ := foldl_call_grows levels later (record levels memory calls)
  refine ⟨isFaithful_of_grows (record_grows levels memory calls), ?_, ?_, fun pattern handler => ?_⟩
  · rw [more later, same]
    exact List.prefix_append _ _
  · rw [more later, grows.methods]
    exact List.prefix_append _ _
  · rw [more, List.foldl_cons, List.foldl_nil, register_space]
    cases Pattern.compile pattern <;> simp [add]

-- A handler that registers another and then breaks off: the new method stays, and so does the snapshot before it.
example : (record 2 [] [.register "/a" ⟨"a", [.register "b" "/b" [], .abort]⟩, .snapshot, .dispatch ⟨"/a", []⟩,
    .register "/c" ⟨"c", []⟩]).space.patterns = ["/a", "/b", "/c"] := by
  rfl

end History

end OpenSound.AddressSpace
