import OpenSound.Proofs.AddressSpace.Enacting
import Mathlib.Data.List.Basic

/-!
# Timelines of address spaces

A trace is a tree: a dispatch holds the runs of the handlers that it invoked, and a run holds its effects, further
dispatches among them. Laid out in the order in which they began, the effects say which methods there were at each
moment: those of the start and those registered before. Whatever handlers do, every effect fits the methods of its
moment, at each level of the tree.
-/

namespace OpenSound

theorem Pattern.text_of_compile {s : String} {p : Pattern} (compiled : Pattern.compile s = .ok p) : p.text = s := by
  unfold Pattern.compile at compiled
  split at compiled
  · cases read : Regex.read (regexText s.toList) with
    | error fault =>
      rw [read] at compiled
      cases compiled
    | ok r =>
      rw [read] at compiled
      cases compiled
      rfl
  · cases compiled
    rfl

mutual

/-- What happened during a run of a handler, in the order in which it began. -/
def Invocation.timeline : Invocation → List Effect
  | .mk _ _ effects => Effect.timelineAll effects

/-- What happened inside an effect. -/
def Effect.inside : Effect → List Effect
  | .dispatched _ invocations _ _ => Invocation.timelineAll invocations
  | .registered _ | .refused _ | .looked _ | .aborted => []

def Invocation.timelineAll : List Invocation → List Effect
  | [] => []
  | i :: is => i.timeline ++ Invocation.timelineAll is

def Effect.timelineAll : List Effect → List Effect
  | [] => []
  | e :: es => e :: e.inside ++ Effect.timelineAll es

end

@[simp] theorem Effect.timelineAll_append (es fs : List Effect) :
    Effect.timelineAll (es ++ fs) = Effect.timelineAll es ++ Effect.timelineAll fs := by
  induction es with
  | nil => rfl
  | cons e es ih => simp [Effect.timelineAll, ih]

@[simp] theorem Effect.timelineAll_singleton (e : Effect) : Effect.timelineAll [e] = e :: e.inside := by
  simp [Effect.timelineAll]

def Effect.method? : Effect → Option Method
  | .registered t => some t
  | .refused _ | .looked _ | .dispatched .. | .aborted => none

/-- The methods that were registered, in the order in which that happened. -/
def Effect.registrations (events : List Effect) : List Method := events.filterMap Effect.method?

namespace AddressSpace

open Effect (registrations)

@[simp] theorem registrations_nil : registrations ([] : List Effect) = [] := rfl

@[simp] theorem registrations_append (xs ys : List Effect) :
    registrations (xs ++ ys) = registrations xs ++ registrations ys := List.filterMap_append

theorem registrations_cons (e : Effect) (es : List Effect) :
    registrations (e :: es) = e.method?.toList ++ registrations es := by
  cases h : e.method? <;> simp [registrations, h]

def matching (methods : List Method) (address : String) : List Method := methods.filter (·.isMatch address)

theorem matching_cons_hit {t : Method} {address : String} (hit : t.isMatch address) (ts : List Method) :
    matching (t :: ts) address = t :: matching ts address := List.filter_cons_of_pos hit

theorem matching_cons_miss {t : Method} {address : String} (miss : ¬t.isMatch address) (ts : List Method) :
    matching (t :: ts) address = matching ts address := List.filter_cons_of_neg miss

/-- A run of a handler on a message, with the effects of the handler's actions. -/
structure IsRunOn (m : Message) (i : Invocation) : Prop where
  message : i.message = m
  effects : Enacts m [] i.method.handler.actions i.effects

/-- The runs of a dispatch that found some methods registered and went to its end: each of the methods that matches
    the message ran once, in their order and on that message, and their number was returned. -/
structure Covers (methods : List Method) (m : Message) (invocations : List Invocation) (count : Nat) : Prop where
  invoked : invocations.map Invocation.method = matching methods m.address
  runs : ∀ i ∈ invocations, IsRunOn m i
  counted : count = (matching methods m.address).length

/-- The runs of a dispatch however it ended: those of some first methods that match. -/
structure Begins (methods : List Method) (m : Message) (invocations : List Invocation) : Prop where
  invoked : invocations.map Invocation.method <+: matching methods m.address
  runs : ∀ i ∈ invocations, IsRunOn m i

/-- An effect can have come about where some methods are registered. -/
def FitsAt (now : List Method) : Effect → Prop
  | .registered t => Pattern.compile t.pattern.text = .ok t.pattern
  | .refused e => ∃ pattern fault, Pattern.compile pattern = .error fault ∧ e = .invalidPattern pattern fault
  | .looked methods => methods = now
  | .dispatched m invocations count ending =>
    Begins now m invocations ∧ (ending = .finished → Covers now m invocations count)
  | .aborted => True

/-- Each event fits the methods of its moment: those of the start, and those registered before it. -/
def Fits (start : List Method) (events : List Effect) : Prop :=
  ∀ before e after, events = before ++ e :: after → FitsAt (start ++ registrations before) e

private theorem fits_nil (start : List Method) : Fits start [] := by
  intro before e after split
  simp at split

theorem fits_cons_iff {start : List Method} {e : Effect} {es : List Effect} :
    Fits start (e :: es) ↔ FitsAt start e ∧ Fits (start ++ e.method?.toList) es := by
  constructor
  · intro fits
    refine ⟨by simpa using fits [] e es rfl, fun before f after split => ?_⟩
    have later := fits (e :: before) f after (by rw [split, List.cons_append])
    rwa [registrations_cons, ← List.append_assoc] at later
  · rintro ⟨first, others⟩ before f after split
    cases before with
    | nil =>
      cases split
      simpa using first
    | cons _ before =>
      cases split
      rw [registrations_cons, ← List.append_assoc]
      exact others before f after rfl

private theorem fits_append {start : List Method} {xs ys : List Effect} (front : Fits start xs)
    (back : Fits (start ++ registrations xs) ys) : Fits start (xs ++ ys) := by
  induction xs generalizing start with
  | nil => simpa using back
  | cons e xs ih =>
    obtain ⟨first, others⟩ := fits_cons_iff.mp front
    refine fits_cons_iff.mpr ⟨first, ih others ?_⟩
    rwa [registrations_cons, ← List.append_assoc] at back

/-- What was registered has the pattern that its text compiles to. -/
theorem Fits.compiled {start : List Method} {events : List Effect} (fits : Fits start events) :
    ∀ t ∈ registrations events, Pattern.compile t.pattern.text = .ok t.pattern := by
  intro t member
  obtain ⟨e, happened, registered⟩ := List.mem_filterMap.mp member
  obtain ⟨before, after, split⟩ := List.append_of_mem happened
  have fitting := fits before e after split
  cases e with
  | registered u => exact (Option.some.inj registered) ▸ fitting
  | refused _ | looked _ | dispatched | aborted => cases registered

/-- An effect after which its handler went on. -/
def IsSettled : Effect → Prop
  | .registered _ | .refused _ | .looked _ => True
  | .dispatched _ _ _ ending => ending = .finished
  | .aborted => False

/-- From one space to another, methods grow by what some events register, and the events fit. -/
structure Grows (s : AddressSpace) (events : List Effect) (s' : AddressSpace) : Prop where
  methods : s'.methods = s.methods ++ registrations events
  fits : Fits s.methods events

theorem Grows.refl (s : AddressSpace) : Grows s [] s := ⟨by simp, fits_nil _⟩

theorem Grows.trans {s s' s'' : AddressSpace} {xs ys : List Effect} (first : Grows s xs s') (second : Grows s' ys s'') :
    Grows s (xs ++ ys) s'' where
  methods := by rw [second.methods, first.methods, registrations_append, List.append_assoc]
  fits := fits_append first.fits (first.methods ▸ second.fits)

theorem Grows.single {s s' : AddressSpace} {e : Effect} (methods : s'.methods = s.methods ++ e.method?.toList)
    (fits : FitsAt s.methods e) : Grows s [e] s' where
  methods := by rw [methods, registrations_cons, registrations_nil, List.append_nil]
  fits := fits_cons_iff.mpr ⟨fits, fits_nil _⟩

theorem Grows.dispatched {s s' : AddressSpace} {m : Message} {is : List Invocation} {count : Nat} {ending : Ending}
    (own : FitsAt s.methods (.dispatched m is count ending)) (inner : Grows s (Invocation.timelineAll is) s') :
    Grows s (.dispatched m is count ending :: Invocation.timelineAll is) s' where
  methods := inner.methods
  fits := fits_cons_iff.mpr ⟨own, by simpa [Effect.method?] using inner.fits⟩

/-- Events lead from one space to another, and where they come to a good end, so did each of them. -/
structure Leads (s : AddressSpace) (events : List Effect) (s' : AddressSpace) (ending : Ending) : Prop
    extends Grows s events s' where
  settled : ending = .finished → ∀ e ∈ events, IsSettled e

theorem Leads.refl (s : AddressSpace) (ending : Ending) : Leads s [] s ending := ⟨.refl s, nofun⟩

theorem Leads.trans {s s' s'' : AddressSpace} {xs ys : List Effect} {ending : Ending}
    (first : Leads s xs s' .finished) (second : Leads s' ys s'' ending) : Leads s (xs ++ ys) s'' ending where
  toGrows := first.toGrows.trans second.toGrows
  settled := by
    intro finished e member
    rcases List.mem_append.mp member with early | late
    · exact first.settled rfl e early
    · exact second.settled finished e late

theorem Leads.single {s s' : AddressSpace} {e : Effect} {ending : Ending}
    (methods : s'.methods = s.methods ++ e.method?.toList) (fits : FitsAt s.methods e)
    (settled : ending = .finished → IsSettled e) : Leads s [e] s' ending :=
  ⟨.single methods fits, fun finished => List.forall_mem_singleton.mpr (settled finished)⟩

theorem Leads.dispatched {s s' : AddressSpace} {m : Message} {is : List Invocation} {count : Nat} {ending : Ending}
    (own : FitsAt s.methods (.dispatched m is count ending)) (inner : Leads s (Invocation.timelineAll is) s' ending) :
    Leads s (.dispatched m is count ending :: Invocation.timelineAll is) s' ending :=
  ⟨.dispatched own inner.toGrows, fun finished => List.forall_mem_cons.mpr ⟨finished, inner.settled finished⟩⟩

/-- A way to dispatch messages that chooses among the methods of the moment at which it starts. -/
def IsSound (nested : AddressSpace → Message → Dispatch) : Prop :=
  ∀ s m, FitsAt s.methods (.dispatched m (nested s m).invocations (nested s m).count (nested s m).ending) ∧
    Leads s (Invocation.timelineAll (nested s m).invocations) (nested s m).space (nested s m).ending

private theorem method_eq_ok {pattern : String} {h : Handler} {t : Method} (made : method pattern h = .ok t) :
    Pattern.compile t.pattern.text = .ok t.pattern := by
  unfold method at made
  split at made
  · rename_i p compiled
    cases made
    rwa [Pattern.text_of_compile compiled]
  · cases made

private theorem method_eq_error {pattern : String} {h : Handler} {e : Error} (refused : method pattern h = .error e) :
    ∃ fault, Pattern.compile pattern = .error fault ∧ e = .invalidPattern pattern fault := by
  unfold method at refused
  split at refused
  · cases refused
  · rename_i fault failed
    cases refused
    exact ⟨fault, failed, rfl⟩

mutual

theorem perform_leads {nested : AddressSpace → Message → Dispatch} (sound : IsSound nested) (m : Message)
    (replies : List Reply) (s : AddressSpace) : ∀ a : Action, Leads s
      (Effect.timelineAll (perform nested m replies s a).effects) (perform nested m replies s a).space
      (perform nested m replies s a).ending
  | .register name pattern actions => by
    rw [perform]
    split
    · rename_i t made
      exact Effect.timelineAll_singleton _ ▸ .single rfl (method_eq_ok made) fun _ => trivial
    · rename_i e refused
      obtain ⟨fault, failed, rfl⟩ := method_eq_error refused
      exact Effect.timelineAll_singleton _ ▸ .single (by simp [Effect.method?]) ⟨pattern, fault, failed, rfl⟩
        fun _ => trivial
  | .dispatch inner => by
    obtain ⟨own, leads⟩ := sound s inner
    rw [perform, Effect.timelineAll_singleton]
    exact .dispatched own leads
  | .abort => by
    rw [perform]
    exact Effect.timelineAll_singleton _ ▸ .single (by simp [Effect.method?]) trivial nofun
  | .remember update => by
    rw [perform]
    exact Effect.timelineAll_singleton _ ▸ .single (by simp [Effect.method?]) rfl fun _ => trivial
  | .consider decide => by
    have looked : Leads s [.looked s.methods] s .finished := .single (by simp [Effect.method?]) rfl fun _ => trivial
    exact looked.trans (performAll_leads sound m replies s (decide (s.situation m replies)))

theorem performAll_leads {nested : AddressSpace → Message → Dispatch} (sound : IsSound nested) (m : Message)
    (replies : List Reply) (s : AddressSpace) : ∀ actions : List Action, Leads s
      (Effect.timelineAll (performAll nested m replies s actions).effects)
      (performAll nested m replies s actions).space (performAll nested m replies s actions).ending
  | [] => .refl s .finished
  | a :: rest => by
    have first := perform_leads sound m replies s a
    rw [performAll]
    by_cases finished : (perform nested m replies s a).ending = .finished
    · rw [if_pos finished]
      have others := performAll_leads sound m
        (replies ++ (perform nested m replies s a).effects.filterMap Effect.reply?)
        (perform nested m replies s a).space rest
      -- the later actions start from the methods that the first one has left
      rw [finished] at first
      exact Effect.timelineAll_append _ _ ▸ first.trans others
    · rwa [if_neg finished]

end

private theorem fitsAt_miss {t : Method} {ts : List Method} {m : Message} {is : List Invocation} {count : Nat}
    {ending : Ending}
    (miss : ¬t.isMatch m.address) (others : FitsAt ts (.dispatched m is count ending)) :
    FitsAt (t :: ts) (.dispatched m is count ending) := by
  have same := matching_cons_miss miss ts
  obtain ⟨begins, covers⟩ := others
  refine ⟨⟨same ▸ begins.invoked, begins.runs⟩, fun finished => ?_⟩
  obtain ⟨invoked, runs, counted⟩ := covers finished
  exact ⟨same ▸ invoked, runs, same ▸ counted⟩

private theorem fitsAt_hit {t : Method} {ts : List Method} {m : Message} {is : List Invocation} {count : Nat}
    {ending : Ending} {effects : List Effect} (hit : t.isMatch m.address) (ran : IsRunOn m (.mk t m effects))
    (others : FitsAt ts (.dispatched m is count ending)) :
    FitsAt (t :: ts) (.dispatched m (.mk t m effects :: is) (count + 1) ending) := by
  have more := matching_cons_hit hit ts
  obtain ⟨begins, covers⟩ := others
  refine ⟨⟨?_, List.forall_mem_cons.mpr ⟨ran, begins.runs⟩⟩, fun finished => ?_⟩
  · rw [more]
    exact (List.prefix_cons_inj t).mpr begins.invoked
  · obtain ⟨invoked, runs, counted⟩ := covers finished
    exact ⟨by rw [more, ← invoked]; rfl, List.forall_mem_cons.mpr ⟨ran, runs⟩, by rw [more, counted]; rfl⟩

private theorem fitsAt_broken {t : Method} {ts : List Method} {m : Message} {ending : Ending} {effects : List Effect}
    (hit : t.isMatch m.address) (ran : IsRunOn m (.mk t m effects)) (broken : ending ≠ .finished) :
    FitsAt (t :: ts) (.dispatched m [.mk t m effects] 0 ending) :=
  -- the methods behind it are not looked at
  ⟨⟨⟨_, (matching_cons_hit hit ts).symm⟩, List.forall_mem_singleton.mpr ran⟩, fun finished => absurd finished broken⟩

/-- Of a loop over some methods, those that match are invoked until a handler does not finish, whatever becomes of the
    registered methods on the way. -/
theorem invokeAll_leads {nested : AddressSpace → Message → Dispatch} (sound : IsSound nested) (m : Message)
    (ts : List Method) (s : AddressSpace) :
    FitsAt ts (.dispatched m (invokeAll nested m s ts).invocations (invokeAll nested m s ts).count
      (invokeAll nested m s ts).ending) ∧
    Leads s (Invocation.timelineAll (invokeAll nested m s ts).invocations) (invokeAll nested m s ts).space
      (invokeAll nested m s ts).ending := by
  induction ts generalizing s with
  | nil => exact ⟨⟨⟨List.nil_prefix, nofun⟩, fun _ => ⟨rfl, nofun, rfl⟩⟩, .refl s .finished⟩
  | cons t ts ih =>
    rw [invokeAll]
    by_cases hit : t.isMatch m.address = true
    · have enacted : IsRunOn m (.mk t m (run nested m s t).effects) := ⟨rfl, run_enacts nested m s t⟩
      have led : Leads s (Effect.timelineAll (run nested m s t).effects) (run nested m s t).space
        (run nested m s t).ending := performAll_leads sound m [] s t.handler.actions
      rw [if_pos hit]
      by_cases finished : (run nested m s t).ending = .finished
      · obtain ⟨own, leads⟩ := ih (run nested m s t).space
        rw [if_pos finished]
        exact ⟨fitsAt_hit hit enacted own, (finished ▸ led).trans leads⟩
      · rw [if_neg finished]
        refine ⟨fitsAt_broken hit enacted finished, ?_⟩
        simpa [Invocation.timelineAll, Invocation.timeline] using led
    · rw [if_neg hit]
      obtain ⟨own, leads⟩ := ih s
      exact ⟨fitsAt_miss hit own, leads⟩

/-- Dispatches choose among the methods of the moment at which they start, at every depth. -/
theorem dispatchWithin_isSound (levels : Nat) : IsSound (dispatchWithin levels) := by
  induction levels with
  | zero => exact fun s m => ⟨⟨⟨List.nil_prefix, nofun⟩, nofun⟩, .refl s .tooDeep⟩
  | succ levels ih => exact fun s m => invokeAll_leads ih m s.methods s

end AddressSpace

end OpenSound
