import OpenSound.Proofs.AddressSpace.Dispatching
import OpenSound.Proofs.AddressSpace.History

/-!
# Handlers that break off

A handler that breaks off ends its dispatch and every dispatch around it. What it would have come to had the handler
returned at that point is a dispatch of its own kind, in which some handlers that break off are pardoned. Up to the
handler that breaks off, both call the same handlers; what was registered by then stays, and nothing else is left.
-/

namespace OpenSound

mutual

/-- The handlers that were called in a run with their messages, in the order in which they began: its own first. -/
def Invocation.calls : Invocation → List (Method × Message)
  | .mk t m effects => (t, m) :: Effect.allCalls effects

/-- The handlers that were called inside an effect. -/
def Effect.calls : Effect → List (Method × Message)
  | .dispatched _ invocations _ _ => Invocation.allCalls invocations
  | .registered _ | .refused _ | .looked _ | .aborted => []

def Invocation.allCalls : List Invocation → List (Method × Message)
  | [] => []
  | i :: is => i.calls ++ Invocation.allCalls is

def Effect.allCalls : List Effect → List (Method × Message)
  | [] => []
  | e :: es => e.calls ++ Effect.allCalls es

end

private theorem Effect.allCalls_append (es fs : List Effect) :
    Effect.allCalls (es ++ fs) = Effect.allCalls es ++ Effect.allCalls fs := by
  induction es with
  | nil => rfl
  | cons e es ih => simp [Effect.allCalls, ih]

private theorem Invocation.allCalls_append (is js : List Invocation) :
    Invocation.allCalls (is ++ js) = Invocation.allCalls is ++ Invocation.allCalls js := by
  induction is with
  | nil => rfl
  | cons i is ih => simp [Invocation.allCalls, ih]

theorem Invocation.timelineAll_append (is js : List Invocation) :
    Invocation.timelineAll (is ++ js) = Invocation.timelineAll is ++ Invocation.timelineAll js := by
  induction is with
  | nil => rfl
  | cons i is ih => simp [Invocation.timelineAll, ih]

namespace AddressSpace

open Effect (registrations)

/-- A way to dispatch messages where a number of handlers are pardoned. It gives the number of pardons that are left. -/
abbrev Pardoning := Nat → AddressSpace → Message → Dispatch × Nat

mutual

/-- Performs an action. Dispatches on the way may use up pardons; an action of another kind is performed as ever. -/
def performPardoning (nested : Pardoning) (m : Message) (replies : List Reply) (pardons : Nat) (s : AddressSpace) :
    Action → Performance × Nat
  | .dispatch inner =>
    let (d, left) := nested pardons s inner
    (⟨d.space, [.dispatched inner d.invocations d.count d.ending], d.ending⟩, left)
  | .consider decide =>
    let (p, left) := performAllPardoning nested m replies pardons s (decide (s.situation m replies))
    ({ p with effects := .looked s.methods :: p.effects }, left)
  | a => (perform (fun s m => (nested pardons s m).1) m replies s a, pardons)

/-- Performs actions in order, until one does not finish. -/
def performAllPardoning (nested : Pardoning) (m : Message) (replies : List Reply) (pardons : Nat) (s : AddressSpace) :
    List Action → Performance × Nat
  | [] => (⟨s, [], .finished⟩, pardons)
  | a :: rest =>
    let (p, left) := performPardoning nested m replies pardons s a
    if p.ending = .finished then
      let (q, left) :=
        performAllPardoning nested m (replies ++ p.effects.filterMap Effect.reply?) left p.space rest
      ({ q with effects := p.effects ++ q.effects }, left)
    else (p, left)

end

/-- Runs the handler of a method on a message. A handler that breaks off while there is a pardon left returns at that
    point instead. -/
def runPardoning (nested : Pardoning) (m : Message) (pardons : Nat) (s : AddressSpace) (t : Method) :
    Performance × Nat :=
  match performAllPardoning nested m [] pardons s t.handler.actions with
  | (p, 0) => (p, 0)
  | (p, left + 1) => if p.ending = .aborted then ({ p with ending := .finished }, left) else (p, left + 1)

/-- Invokes those of some methods that match a message on it, one after another, until a handler does not finish. -/
def invokeAllPardoning (nested : Pardoning) (m : Message) (pardons : Nat) (s : AddressSpace) :
    List Method → Dispatch × Nat
  | [] => (⟨s, [], 0, .finished⟩, pardons)
  | t :: ts =>
    if t.isMatch m.address then
      let (p, left) := runPardoning nested m pardons s t
      if p.ending = .finished then
        let (d, left) := invokeAllPardoning nested m left p.space ts
        ({ d with invocations := .mk t m p.effects :: d.invocations, count := d.count + 1 }, left)
      else (⟨p.space, [.mk t m p.effects], 0, p.ending⟩, left)
    else invokeAllPardoning nested m pardons s ts

/-- Dispatches a message as `dispatchWithin` does, where the first handlers that break off, up to a number of them,
    return at that point instead. -/
def dispatchPardoning : Nat → Pardoning
  | 0, pardons, s, _ => (⟨s, [], 0, .tooDeep⟩, pardons)
  | levels + 1, pardons, s, m => invokeAllPardoning (dispatchPardoning levels) m pardons s s.methods

/-- Without a pardon, a way to dispatch messages is another one. -/
def IsStrict (nested : AddressSpace → Message → Dispatch) (pardoning : Pardoning) : Prop :=
  ∀ s m, pardoning 0 s m = (nested s m, 0)

variable {nested : AddressSpace → Message → Dispatch} {pardoning : Pardoning}

mutual

private theorem performPardoning_zero (strict : IsStrict nested pardoning) (m : Message) (replies : List Reply)
    (s : AddressSpace) : ∀ a : Action,
      performPardoning pardoning m replies 0 s a = (perform nested m replies s a, 0)
  | .register name pattern actions => by simp only [performPardoning, perform]
  | .dispatch inner => by rw [performPardoning, perform, strict s inner]
  | .abort => by simp only [performPardoning, perform]
  | .remember update => by simp only [performPardoning, perform]
  | .consider decide => by rw [performPardoning, perform, performAllPardoning_zero strict m replies s _]

private theorem performAllPardoning_zero (strict : IsStrict nested pardoning) (m : Message) (replies : List Reply)
    (s : AddressSpace) : ∀ actions : List Action,
      performAllPardoning pardoning m replies 0 s actions = (performAll nested m replies s actions, 0)
  | [] => by rw [performAllPardoning, performAll]
  | a :: rest => by
    rw [performAllPardoning, performAll, performPardoning_zero strict m replies s a]
    by_cases finished : (perform nested m replies s a).ending = .finished
    · simp only [if_pos finished, performAllPardoning_zero strict m _ _ rest]
    · simp only [if_neg finished]

end

private theorem invokeAllPardoning_zero (strict : IsStrict nested pardoning) (m : Message) (ts : List Method)
    (s : AddressSpace) : invokeAllPardoning pardoning m 0 s ts = (invokeAll nested m s ts, 0) := by
  induction ts generalizing s with
  | nil => rfl
  | cons t ts ih =>
    have ran : runPardoning pardoning m 0 s t = (run nested m s t, 0) := by
      rw [runPardoning, performAllPardoning_zero strict]
      rfl
    rw [invokeAllPardoning, invokeAll, ran]
    by_cases hit : t.isMatch m.address = true
    · by_cases finished : (run nested m s t).ending = .finished
      · simp only [if_pos hit, if_pos finished, ih]
      · simp only [if_pos hit, if_neg finished]
    · rw [if_neg hit, if_neg hit, ih]

/-- Without a pardon, messages are dispatched as ever. -/
theorem dispatchPardoning_zero (levels : Nat) : IsStrict (dispatchWithin levels) (dispatchPardoning levels) := by
  induction levels with
  | zero => exact fun s m => rfl
  | succ levels ih => exact fun s m => invokeAllPardoning_zero ih m s.methods s

/-! ## With one pardon -/

/-- All that happened in some runs, and then in some effects, came to a good end. -/
def AllSettled (is : List Invocation) (es : List Effect) : Prop :=
  ∀ e ∈ Invocation.timelineAll is ++ Effect.timelineAll es, IsSettled e

theorem AllSettled.cons {t : Method} {m : Message} {effects es : List Effect} {is : List Invocation}
    (first : ∀ e ∈ Effect.timelineAll effects, IsSettled e) (others : AllSettled is es) :
    AllSettled (.mk t m effects :: is) es := by
  intro e member
  rw [Invocation.timelineAll, List.append_assoc] at member
  rcases List.mem_append.mp member with early | late
  · exact first e early
  · exact others e late

theorem AllSettled.single {es : List Effect} (settled : ∀ e ∈ Effect.timelineAll es, IsSettled e) :
    AllSettled [] es := settled

/-- From the runs of a dispatch that a handler broke off to those that there would have been had its run `x` returned at
    that point: at each dispatch that was under way the same runs came to a good end before, and the last one goes on
    where it was. -/
inductive Continues (x : Invocation) : List Invocation → List Invocation → Prop
  | returned {is later : List Invocation} {es : List Effect} : x.effects = es ++ [.aborted] → AllSettled is es →
    Continues x (is ++ [x]) (is ++ x :: later)
  | within {is later inner inner' : List Invocation} {es more : List Effect} {t : Method} {m q : Message}
    {count count' : Nat} {ending : Ending} : AllSettled is es → Continues x inner inner' →
    Continues x (is ++ [.mk t m (es ++ [.dispatched q inner count .aborted])])
      (is ++ .mk t m (es ++ .dispatched q inner' count' ending :: more) :: later)

theorem Continues.cons {x : Invocation} {t : Method} {m : Message} {effects : List Effect} {is is' : List Invocation}
    (first : ∀ e ∈ Effect.timelineAll effects, IsSettled e) (others : Continues x is is') :
    Continues x (.mk t m effects :: is) (.mk t m effects :: is') := by
  cases others with
  | returned broke settled => exact .returned broke (settled.cons first)
  | within settled inner => exact .within (settled.cons first) inner

/-- The same for the effects of a handler whose dispatch was broken off. -/
inductive ContinuesIn (x : Invocation) : List Effect → List Effect → Prop
  | within {inner inner' : List Invocation} {es more : List Effect} {q : Message} {count count' : Nat}
    {ending : Ending} : (∀ e ∈ Effect.timelineAll es, IsSettled e) → Continues x inner inner' →
    ContinuesIn x (es ++ [.dispatched q inner count .aborted]) (es ++ .dispatched q inner' count' ending :: more)

private theorem settled_nil : ∀ e ∈ Effect.timelineAll [], IsSettled e := by simp [Effect.timelineAll]

private theorem settled_append {es fs : List Effect} (early : ∀ e ∈ Effect.timelineAll es, IsSettled e)
    (late : ∀ e ∈ Effect.timelineAll fs, IsSettled e) : ∀ e ∈ Effect.timelineAll (es ++ fs), IsSettled e := by
  rw [Effect.timelineAll_append]
  exact List.forall_mem_append.mpr ⟨early, late⟩

theorem ContinuesIn.behind {x : Invocation} {es fs fs' : List Effect}
    (settled : ∀ e ∈ Effect.timelineAll es, IsSettled e) (continues : ContinuesIn x fs fs') :
    ContinuesIn x (es ++ fs) (es ++ fs') := by
  cases continues with
  | within early inner =>
    rw [← List.append_assoc, ← List.append_assoc]
    exact .within (settled_append settled early) inner

theorem ContinuesIn.before {x : Invocation} {fs fs' : List Effect} (continues : ContinuesIn x fs fs')
    (later : List Effect) : ContinuesIn x fs (fs' ++ later) := by
  cases continues with
  | within early inner =>
    rw [List.append_assoc, List.cons_append]
    exact .within early inner

/-- A run that breaks off itself returns instead, and other runs may follow it. -/
theorem Continues.alone {x : Invocation} {es : List Effect} (last : x.effects = es ++ [.aborted])
    (settled : ∀ e ∈ Effect.timelineAll es, IsSettled e) (later : List Invocation) :
    Continues x [x] (x :: later) :=
  .returned last (AllSettled.single settled)

/-- A run that one of its dispatches broke off goes on where it was, and other runs may follow it. -/
theorem ContinuesIn.run {x : Invocation} {es es' : List Effect} (continues : ContinuesIn x es es') (t : Method)
    (m : Message) (later : List Invocation) : Continues x [.mk t m es] (.mk t m es' :: later) := by
  cases continues with
  | within settled inner => exact .within (AllSettled.single settled) inner

/-- What one pardon makes of actions: it is left where no dispatch of theirs is broken off, and otherwise they go on with
    what that dispatch comes to. -/
inductive Spared (p : Performance) : Performance × Nat → Prop
  | unneeded : p.ending ≠ .aborted → Spared p (p, 1)
  | own {es : List Effect} : p.ending = .aborted → p.effects = es ++ [.aborted] →
    (∀ e ∈ Effect.timelineAll es, IsSettled e) → Spared p (p, 1)
  | used {x : Invocation} {q : Performance} : p.ending = .aborted → ContinuesIn x p.effects q.effects →
    Spared p (q, 0)

/-- What one pardon makes of a dispatch: it is left where no handler breaks off, and otherwise the dispatch goes on behind
    the run that does. -/
structure Resumes (d : Dispatch) (r : Dispatch × Nat) : Prop where
  unneeded : d.ending ≠ .aborted → r = (d, 1)
  used : d.ending = .aborted → r.2 = 0 ∧ ∃ x, Continues x d.invocations r.1.invocations

theorem Spared.behind {q : Performance} {r : Performance × Nat} {es : List Effect}
    (settled : ∀ e ∈ Effect.timelineAll es, IsSettled e) (spared : Spared q r) :
    Spared { q with effects := es ++ q.effects } ({ r.1 with effects := es ++ r.1.effects }, r.2) := by
  cases spared with
  | unneeded whole => exact .unneeded whole
  | own broken last others => exact .own broken (by rw [last, List.append_assoc]) (settled_append settled others)
  | used broken continues => exact .used broken (continues.behind settled)

mutual

private theorem performPardoning_spared (sound : IsSound nested) (strict : IsStrict nested pardoning)
    (resumes : ∀ s m, Resumes (nested s m) (pardoning 1 s m)) (m : Message) (replies : List Reply) (s : AddressSpace) :
    ∀ a : Action, Spared (perform nested m replies s a) (performPardoning pardoning m replies 1 s a)
  | .register name pattern actions => by
    have ended : (perform nested m replies s (.register name pattern actions)).ending = .finished := by
      rw [perform]
      split <;> rfl
    have same : performPardoning pardoning m replies 1 s (.register name pattern actions) =
        (perform nested m replies s (.register name pattern actions), 1) := by
      simp only [performPardoning, perform]
    rw [same]
    exact .unneeded (by rw [ended]; nofun)
  | .dispatch inner => by
    rw [performPardoning, perform]
    obtain ⟨unneeded, used⟩ := resumes s inner
    by_cases broken : (nested s inner).ending = .aborted
    · obtain ⟨left, x, continues⟩ := used broken
      simp only [left, broken]
      exact .used rfl (.within settled_nil continues)
    · rw [unneeded broken]
      exact .unneeded broken
  | .abort => .own rfl (List.nil_append _).symm settled_nil
  | .remember update => .unneeded (by simp [perform])
  | .consider decide => by
    have settled : ∀ e ∈ Effect.timelineAll [.looked s.methods], IsSettled e := by simp [Effect.inside, IsSettled]
    rw [performPardoning, perform]
    exact (performAllPardoning_spared sound strict resumes m replies s (decide (s.situation m replies))).behind settled

private theorem performAllPardoning_spared (sound : IsSound nested) (strict : IsStrict nested pardoning)
    (resumes : ∀ s m, Resumes (nested s m) (pardoning 1 s m)) (m : Message) (replies : List Reply) (s : AddressSpace) :
    ∀ actions : List Action,
      Spared (performAll nested m replies s actions) (performAllPardoning pardoning m replies 1 s actions)
  | [] => .unneeded (by simp [performAll])
  | a :: rest => by
    have first := performPardoning_spared sound strict resumes m replies s a
    have leads := perform_leads sound m replies s a
    rw [performAll, performAllPardoning]
    generalize perform nested m replies s a = p at first leads
    generalize performPardoning pardoning m replies 1 s a = r at first
    cases first with
    | unneeded whole =>
      by_cases finished : p.ending = .finished
      · simp only [if_pos finished]
        exact (performAllPardoning_spared sound strict resumes m _ p.space rest).behind (leads.settled finished)
      · simp only [if_neg finished]
        exact .unneeded whole
    | own broken last others =>
      have stopped : p.ending ≠ .finished := by rw [broken]; nofun
      simp only [if_neg stopped]
      exact .own broken last others
    | @used x q broken continues =>
      have stopped : p.ending ≠ .finished := by rw [broken]; nofun
      simp only [if_neg stopped]
      by_cases finished : q.ending = .finished
      · simp only [if_pos finished]
        rw [performAllPardoning_zero strict]
        exact .used broken (continues.before _)
      · simp only [if_neg finished]
        exact .used broken continues

end

/-- What one pardon makes of the run of a handler: the handler that breaks off itself has returned. -/
inductive SparedRun (p : Performance) : Performance × Nat → Prop
  | unneeded : p.ending ≠ .aborted → SparedRun p (p, 1)
  | own {es : List Effect} : p.ending = .aborted → p.effects = es ++ [.aborted] →
    (∀ e ∈ Effect.timelineAll es, IsSettled e) → SparedRun p ({ p with ending := .finished }, 0)
  | used {x : Invocation} {q : Performance} : p.ending = .aborted → ContinuesIn x p.effects q.effects →
    SparedRun p (q, 0)

private theorem runPardoning_spared (sound : IsSound nested) (strict : IsStrict nested pardoning)
    (resumes : ∀ s m, Resumes (nested s m) (pardoning 1 s m)) (m : Message) (s : AddressSpace) (t : Method) :
    SparedRun (run nested m s t) (runPardoning pardoning m 1 s t) := by
  have spared := performAllPardoning_spared sound strict resumes m [] s t.handler.actions
  rw [run, runPardoning]
  generalize performAll nested m [] s t.handler.actions = p at spared
  generalize performAllPardoning pardoning m [] 1 s t.handler.actions = r at spared
  cases spared with
  | unneeded whole =>
    simp only [if_neg whole]
    exact .unneeded whole
  | own broken last settled =>
    simp only [if_pos broken]
    exact .own broken last settled
  | used broken continues => exact .used broken continues

private theorem invokeAllPardoning_resumes (sound : IsSound nested) (strict : IsStrict nested pardoning)
    (resumes : ∀ s m, Resumes (nested s m) (pardoning 1 s m)) (m : Message) (ts : List Method) (s : AddressSpace) :
    Resumes (invokeAll nested m s ts) (invokeAllPardoning pardoning m 1 s ts) := by
  induction ts generalizing s with
  | nil => exact ⟨fun _ => rfl, nofun⟩
  | cons t ts ih =>
    by_cases hit : t.isMatch m.address = true
    · have ran := runPardoning_spared sound strict resumes m s t
      have leads : Leads s (Effect.timelineAll (run nested m s t).effects) (run nested m s t).space
        (run nested m s t).ending := performAll_leads sound m [] s t.handler.actions
      rw [invokeAll, invokeAllPardoning, if_pos hit, if_pos hit]
      generalize run nested m s t = p at ran leads
      generalize runPardoning pardoning m 1 s t = r at ran
      cases ran with
      | unneeded whole =>
        by_cases finished : p.ending = .finished
        · obtain ⟨unneeded, used⟩ := ih p.space
          simp only [if_pos finished]
          refine ⟨fun others => by rw [unneeded others], fun broken => ?_⟩
          obtain ⟨left, x, continues⟩ := used broken
          exact ⟨left, x, continues.cons (leads.settled finished)⟩
        · simp only [if_neg finished]
          exact ⟨fun _ => rfl, fun broken => absurd broken whole⟩
      | @own es broken last settled =>
        have stopped : p.ending ≠ .finished := by rw [broken]; nofun
        simp only [if_neg stopped, if_true, invokeAllPardoning_zero strict]
        have resumed := Continues.alone (x := .mk t m p.effects) last settled
        exact ⟨absurd broken, fun _ => ⟨rfl, _, resumed _⟩⟩
      | @used x q broken continues =>
        have stopped : p.ending ≠ .finished := by rw [broken]; nofun
        simp only [if_neg stopped]
        by_cases finished : q.ending = .finished
        · simp only [if_pos finished, invokeAllPardoning_zero strict]
          exact ⟨absurd broken, fun _ => ⟨rfl, x, continues.run t m _⟩⟩
        · simp only [if_neg finished]
          exact ⟨absurd broken, fun _ => ⟨rfl, x, continues.run t m []⟩⟩
    · rw [invokeAll, invokeAllPardoning, if_neg hit, if_neg hit]
      exact ih s

/-- With one pardon, a dispatch that a handler broke off goes on behind the run of that handler. -/
theorem dispatchPardoning_resumes (levels : Nat) (s : AddressSpace) (m : Message) :
    Resumes (dispatchWithin levels s m) (dispatchPardoning levels 1 s m) := by
  induction levels generalizing s m with
  | zero => exact ⟨fun _ => rfl, nofun⟩
  | succ levels ih =>
    exact invokeAllPardoning_resumes (dispatchWithin_isSound levels) (dispatchPardoning_zero levels) ih m s.methods s

/-- Both have the same calls up to the end of what the run came to. -/
theorem Continues.allCalls {x : Invocation} {is is' : List Invocation} (continues : Continues x is is') :
    ∃ before later, Invocation.allCalls is = before ++ x.calls ∧
      Invocation.allCalls is' = before ++ x.calls ++ later := by
  induction continues with
  | @returned is later es _ _ =>
    refine ⟨Invocation.allCalls is, Invocation.allCalls later, ?_, ?_⟩
    · simp [Invocation.allCalls_append, Invocation.allCalls]
    · simp [Invocation.allCalls_append, Invocation.allCalls]
  | @within is later inner inner' es more t m q _ _ _ _ _ ih =>
    obtain ⟨before, behind, front, whole⟩ := ih
    refine ⟨Invocation.allCalls is ++ (t, m) :: (Effect.allCalls es ++ before),
      behind ++ Effect.allCalls more ++ Invocation.allCalls later, ?_, ?_⟩
    · simp [Invocation.allCalls_append, Invocation.allCalls, Invocation.calls, Effect.allCalls_append, Effect.allCalls,
        Effect.calls, front]
    · simp [Invocation.allCalls_append, Invocation.allCalls, Invocation.calls, Effect.allCalls_append, Effect.allCalls,
        Effect.calls, whole]

/-- That a handler broke off is the last of what happened, and it happened once. -/
theorem Continues.timeline {x : Invocation} {is is' : List Invocation} (continues : Continues x is is') :
    ∃ before, Invocation.timelineAll is = before ++ [.aborted] ∧ .aborted ∉ before := by
  have clean {is : List Invocation} {es : List Effect} (settled : AllSettled is es) :
      .aborted ∉ Invocation.timelineAll is ++ Effect.timelineAll es := fun member => settled .aborted member
  induction continues with
  | @returned is later es broke settled =>
    refine ⟨Invocation.timelineAll is ++ Effect.timelineAll es, ?_, clean settled⟩
    obtain ⟨t, m, effects⟩ := x
    obtain rfl : effects = es ++ [Effect.aborted] := broke
    simp [Invocation.timelineAll_append, Invocation.timelineAll, Invocation.timeline, Effect.inside]
  | @within is later inner inner' es more t m q count _ _ settled _ ih =>
    obtain ⟨before, last, free⟩ := ih
    refine ⟨Invocation.timelineAll is ++ Effect.timelineAll es ++ .dispatched q inner count .aborted :: before, ?_, ?_⟩
    · simp [Invocation.timelineAll_append, Invocation.timelineAll, Invocation.timeline, Effect.inside, last]
    · intro member
      rcases List.mem_append.mp member with early | late
      · exact clean settled early
      · exact free (by simpa using late)

/-- The run that broke off is told by what happened. -/
theorem Continues.unique {x y : Invocation} {is is' is'' : List Invocation} (continues : Continues x is is')
    (other : Continues y is is'') : x = y := by
  induction continues generalizing is'' with
  | @returned is later es broke settled =>
    generalize whole : is ++ [x] = js at other
    cases other with
    | returned broke' settled' => exact (List.append_inj' whole rfl).2 |> List.singleton_inj.mp
    | within settled' inner' =>
      obtain rfl := List.singleton_inj.mp (List.append_inj' whole rfl).2
      cases List.singleton_inj.mp (List.append_inj' broke rfl).2
  | @within is later inner inner' es more t m q count _ _ settled _ ih =>
    generalize whole : is ++ [.mk t m (es ++ [.dispatched q inner count .aborted])] = js at other
    cases other with
    | returned broke' settled' =>
      obtain rfl := List.singleton_inj.mp (List.append_inj' whole rfl).2
      cases List.singleton_inj.mp (List.append_inj' broke' rfl).2
    | within settled' inner' =>
      obtain ⟨-, -, effects⟩ := Invocation.mk.inj (List.singleton_inj.mp (List.append_inj' whole rfl).2)
      cases List.singleton_inj.mp (List.append_inj' effects rfl).2
      exact ih inner'

private theorem Continues.broke {x : Invocation} {is is' : List Invocation} (continues : Continues x is is') :
    ∃ es, x.effects = es ++ [.aborted] := by
  induction continues with
  | returned broke => exact ⟨_, broke⟩
  | within _ _ ih => exact ih

/-- What comes of registering some methods on a space that is empty at first and whose handlers have a memory. -/
def holding (memory : List UInt8) (methods : List Method) : Except Error AddressSpace :=
  methods.foldlM (fun s t => s.register t.pattern.text t.handler) (startingWith memory)

private theorem foldlM_register {methods : List Method}
    (compiled : ∀ t ∈ methods, Pattern.compile t.pattern.text = .ok t.pattern) (s : AddressSpace) :
    methods.foldlM (fun s t => s.register t.pattern.text t.handler) s =
      .ok { s with methods := s.methods ++ methods } := by
  induction methods generalizing s with
  | nil => rw [List.append_nil]; rfl
  | cons t ts ih =>
    obtain ⟨first, others⟩ := List.forall_mem_cons.mp compiled
    have registered : s.register t.pattern.text t.handler = .ok (s.add t) := by simp only [register, method, first]
    rw [List.foldlM_cons, registered]
    refine (ih others (s.add t)).trans ?_
    rw [add, List.append_assoc, List.singleton_append]

/-- A space can be had by registering its methods, if it has grown from one where patterns are what their texts
    compile to. -/
theorem Grows.holding {s s' : AddressSpace} {events : List Effect} (grows : Grows s events s')
    (compiled : ∀ t ∈ s.methods, Pattern.compile t.pattern.text = .ok t.pattern) :
    holding s'.memory s'.methods = .ok s' := by
  have all : ∀ t ∈ s'.methods, Pattern.compile t.pattern.text = .ok t.pattern := by
    rw [grows.methods]
    exact List.forall_mem_append.mpr ⟨compiled, grows.fits.compiled⟩
  rw [AddressSpace.holding, foldlM_register all]
  rfl

/-- A dispatch that is broken off, by a handler that it invoked itself or by one further inside, has called the same
    handlers as if that run of the handler, `x`, had returned at that point: those before it, it, and those that it had
    called itself; then there would have been others. Each dispatch that was under way ends with the run that was
    broken off in it. Breaking off is the last of what happened. What was registered before stays, in order, and nothing
    else is registered; whatever the space is used for later, it is used as one on which just these methods were
    registered. -/
theorem dispatchWithin_breaks_off (levels : Nat) (s : AddressSpace) (m : Message) (d : Dispatch)
    (ran : dispatchWithin levels s m = d) (broken : d.ending = .aborted) :
    (∃ x before, (∃ es, x.effects = es ++ [.aborted]) ∧ Invocation.allCalls d.invocations = before ++ x.calls ∧
      ∀ more, levels ≤ more → dispatchPardoning more 0 s m = (d, 0) ∧
        ∃ resumed, dispatchPardoning more 1 s m = (resumed, 0) ∧ Continues x d.invocations resumed.invocations ∧
          ∃ later, Invocation.allCalls resumed.invocations = before ++ x.calls ++ later) ∧
    ∃ before, Invocation.timelineAll d.invocations = before ++ [.aborted] ∧ .aborted ∉ before ∧
      d.space.methods = s.methods ++ registrations before ∧
      ((∀ t ∈ s.methods, Pattern.compile t.pattern.text = .ok t.pattern) →
        ∃ fresh, holding d.space.memory (s.methods ++ registrations before) = .ok fresh ∧
          ∀ more, ∀ later : List Call,
            later.foldl (History.call more) ⟨d.space, []⟩ = later.foldl (History.call more) ⟨fresh, []⟩) := by
  have resumes (more : Nat) (enough : levels ≤ more) : dispatchWithin more s m = d := by
    rw [← ran]
    exact dispatchWithin_eq_of_le enough s m (by rw [ran, broken]; nofun)
  obtain ⟨-, used⟩ := dispatchPardoning_resumes levels s m
  rw [ran] at used
  obtain ⟨-, x, continues⟩ := used broken
  obtain ⟨before, _, called, -⟩ := continues.allCalls
  refine ⟨⟨x, before, continues.broke, called, fun more enough => ⟨?_, ?_⟩⟩, ?_⟩
  · rw [dispatchPardoning_zero more s m, resumes more enough]
  · obtain ⟨-, used⟩ := dispatchPardoning_resumes more s m
    rw [resumes more enough] at used
    obtain ⟨left, y, continues'⟩ := used broken
    obtain rfl := continues.unique continues'
    obtain ⟨before', later, called', called''⟩ := continues'.allCalls
    obtain rfl := List.append_cancel_right (called.symm.trans called')
    exact ⟨_, Prod.ext rfl left, continues', later, called''⟩
  · obtain ⟨before, last, free⟩ := continues.timeline
    obtain ⟨-, leads⟩ := dispatchWithin_isSound levels s m
    rw [ran, last] at leads
    have methods : d.space.methods = s.methods ++ registrations before := by
      rw [leads.methods, registrations_append, registrations_cons, registrations_nil]
      simp [Effect.method?]
    exact ⟨before, last, free, methods, fun compiled => ⟨d.space, methods ▸ leads.holding compiled, fun _ _ => rfl⟩⟩

/-- A handler that registers another and dispatches to it, behind one that breaks off: neither the new handler nor the
    one behind the first is called, as they would have been, and what the first would have registered then is missing. -/
theorem dispatchWithin_breaks_off_inside :
    let m : Message := ⟨"/a", []⟩
    let q : Message := ⟨"/b", []⟩
    let outer : Method := ⟨.exact "/a", ⟨"outer", [.register "late" "/b" [], .dispatch q, .register "never" "/c" []]⟩⟩
    let inner : Method := ⟨.exact "/b", ⟨"inner", [.abort]⟩⟩
    let last : Method := ⟨.exact "/a", ⟨"last", []⟩⟩
    let late : Method := ⟨.exact "/b", ⟨"late", []⟩⟩
    let d := dispatchWithin 2 ⟨[outer, inner, last], []⟩ m
    d.ending = .aborted ∧ Invocation.allCalls d.invocations = [(outer, m), (inner, q)] ∧
    (∃ resumed, dispatchPardoning 2 1 ⟨[outer, inner, last], []⟩ m = (resumed, 0) ∧
      Invocation.allCalls resumed.invocations = [(outer, m), (inner, q)] ++ [(late, q), (last, m)]) ∧
    d.space.methods = [outer, inner, last] ++ [late] ∧
    ∃ fresh, holding [] [outer, inner, last, late] = .ok fresh ∧ ∀ more, ∀ later : List Call,
      later.foldl (History.call more) ⟨d.space, []⟩ = later.foldl (History.call more) ⟨fresh, []⟩ := by
  intro m q outer inner last late d
  obtain ⟨⟨_, _, -, -, resumes⟩, before, -, -, methods, used⟩ :=
    dispatchWithin_breaks_off 2 ⟨[outer, inner, last], []⟩ m d rfl rfl
  obtain ⟨-, resumed, spared, -⟩ := resumes 2 (Nat.le_refl 2)
  have left : d.space.methods = [outer, inner, last] ++ [late] := by rfl
  have registered : registrations before = [late] := List.append_cancel_left (methods.symm.trans left)
  have all : Invocation.allCalls (dispatchPardoning 2 1 ⟨[outer, inner, last], []⟩ m).1.invocations =
      [(outer, m), (inner, q), (late, q), (last, m)] := by rfl
  rw [spared] at all
  rw [registered] at used
  have a : Pattern.compile "/a" = .ok (.exact "/a") := by rfl
  have b : Pattern.compile "/b" = .ok (.exact "/b") := by rfl
  refine ⟨rfl, rfl, ⟨resumed, spared, all⟩, left, used fun t member => ?_⟩
  obtain rfl | rfl | rfl : t = outer ∨ t = inner ∨ t = last := by simpa using member
  · exact a
  · exact b
  · exact a

end AddressSpace

end OpenSound
