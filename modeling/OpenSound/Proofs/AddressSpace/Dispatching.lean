import OpenSound.Proofs.AddressSpace.Timeline

/-!
# Dispatches that finish

A dispatch that finishes is the same whatever depth of nesting is allowed beyond what it needs. It invokes the methods
that match among those registered when it started, and so does each dispatch that happened inside it.
-/

namespace OpenSound.AddressSpace

open Effect (registrations)

/-- One way to dispatch messages agrees with another wherever that one does not run out of levels. -/
def Agrees (nested nested' : AddressSpace → Message → Dispatch) : Prop :=
  ∀ s m, (nested s m).ending ≠ .tooDeep → nested' s m = nested s m

mutual

private theorem perform_agrees {nested nested' : AddressSpace → Message → Dispatch} (agree : Agrees nested nested')
    (m : Message) (replies : List Reply) (s : AddressSpace) : ∀ a : Action,
      (perform nested m replies s a).ending ≠ .tooDeep → perform nested' m replies s a = perform nested m replies s a
  | .register name pattern actions => fun _ => by rw [perform, perform]
  | .dispatch inner => fun shallow => by
    rw [perform] at shallow
    rw [perform, perform, agree s inner shallow]
  | .abort => fun _ => by rw [perform, perform]
  | .remember update => fun _ => by rw [perform, perform]
  | .consider decide => fun shallow => by
    rw [perform] at shallow
    rw [perform, perform, performAll_agrees agree m replies s _ shallow]

private theorem performAll_agrees {nested nested' : AddressSpace → Message → Dispatch} (agree : Agrees nested nested')
    (m : Message) (replies : List Reply) (s : AddressSpace) : ∀ actions : List Action,
      (performAll nested m replies s actions).ending ≠ .tooDeep →
        performAll nested' m replies s actions = performAll nested m replies s actions
  | [] => fun _ => by rw [performAll, performAll]
  | a :: rest => fun shallow => by
    by_cases finished : (perform nested m replies s a).ending = .finished
    · have first := perform_agrees agree m replies s a (by simp [finished])
      simp only [performAll, if_pos finished] at shallow
      simp only [performAll, first, if_pos finished, performAll_agrees agree m _ _ rest shallow]
    · simp only [performAll, if_neg finished] at shallow
      have first := perform_agrees agree m replies s a shallow
      simp only [performAll, first, if_neg finished]

end

private theorem run_agrees {nested nested' : AddressSpace → Message → Dispatch} (agree : Agrees nested nested')
    (m : Message)
    (s : AddressSpace) (t : Method) (shallow : (run nested m s t).ending ≠ .tooDeep) :
    run nested' m s t = run nested m s t :=
  performAll_agrees agree m [] s t.handler.actions shallow

private theorem invokeAll_agrees {nested nested' : AddressSpace → Message → Dispatch} (agree : Agrees nested nested')
    (m : Message) (ts : List Method) (s : AddressSpace) (shallow : (invokeAll nested m s ts).ending ≠ .tooDeep) :
    invokeAll nested' m s ts = invokeAll nested m s ts := by
  induction ts generalizing s with
  | nil => rfl
  | cons t ts ih =>
    by_cases hit : t.isMatch m.address = true
    · by_cases finished : (run nested m s t).ending = .finished
      · have first := run_agrees agree m s t (by simp [finished])
        simp only [invokeAll, if_pos hit, if_pos finished] at shallow
        simp only [invokeAll, if_pos hit, first, if_pos finished, ih _ shallow]
      · simp only [invokeAll, if_pos hit, if_neg finished] at shallow
        have first := run_agrees agree m s t shallow
        simp only [invokeAll, if_pos hit, first, if_neg finished]
    · simp only [invokeAll, if_neg hit] at shallow ⊢
      exact ih s shallow

private theorem dispatchWithin_agrees_succ (levels : Nat) : Agrees (dispatchWithin levels)
    (dispatchWithin (levels + 1)) := by
  induction levels with
  | zero => exact fun s m shallow => absurd rfl shallow
  | succ levels ih => exact fun s m shallow => invokeAll_agrees ih m s.methods s shallow

/-- A dispatch that does not run out of levels is the same with more of them. -/
theorem dispatchWithin_eq_of_le {levels more : Nat} (enough : levels ≤ more) (s : AddressSpace) (m : Message)
    (shallow : (dispatchWithin levels s m).ending ≠ .tooDeep) :
    dispatchWithin more s m = dispatchWithin levels s m := by
  induction enough with
  | refl => rfl
  | step _ ih =>
    rw [← ih] at shallow
    rw [dispatchWithin_agrees_succ _ s m shallow, ih]

/-- A dispatch that finishes, however handlers register and dispatch on the way, invoked exactly the methods that match
    among those registered when it started, each once and in their order, and returned their number. The same holds of
    every dispatch inside it, for the methods registered by the time at which that one started: it misses none that was
    registered before, and has none that was registered later. Each run has the effects of its handler's actions. -/
theorem dispatchWithin_covers (levels : Nat) (s : AddressSpace) (m : Message) (d : Dispatch)
    (ran : dispatchWithin levels s m = d) (finished : d.ending = .finished) :
    Covers s.methods m d.invocations d.count ∧
    (∀ before inner is count ending after,
      Invocation.timelineAll d.invocations = before ++ .dispatched inner is count ending :: after →
      ending = .finished ∧ Covers (s.methods ++ registrations before) inner is count) ∧
    (∀ before t between inner is count ending after,
      Invocation.timelineAll d.invocations =
        before ++ .registered t :: (between ++ .dispatched inner is count ending :: after) →
      t.isMatch inner.address → t ∈ is.map Invocation.method) ∧
    d.space.methods = s.methods ++ registrations (Invocation.timelineAll d.invocations) ∧
    ∀ more, levels ≤ more → dispatchWithin more s m = d := by
  obtain ⟨own, leads⟩ := dispatchWithin_isSound levels s m
  rw [ran] at own leads
  have inside : ∀ before inner is count ending after,
      Invocation.timelineAll d.invocations = before ++ .dispatched inner is count ending :: after →
      ending = .finished ∧ Covers (s.methods ++ registrations before) inner is count := by
    intro before inner is count ending after split
    have settled : ending = .finished := leads.settled finished (.dispatched inner is count ending) (by simp [split])
    exact ⟨settled, (leads.fits before _ after split).2 settled⟩
  refine ⟨own.2 finished, inside, ?_, leads.methods, ?_⟩
  · intro before t between inner is count ending after split hit
    rw [← List.cons_append, ← List.append_assoc] at split
    obtain ⟨-, covers⟩ := inside _ inner is count ending after split
    rw [covers.invoked]
    refine List.mem_filter.mpr ⟨?_, hit⟩
    simp [registrations_cons, Effect.method?]
  · intro more enough
    rw [← ran]
    exact dispatchWithin_eq_of_le enough s m (by simp [ran, finished])

/-- A handler that registers another for its own address and dispatches there again, the first time that it runs: the
    dispatch that invoked it has one invocation, and the dispatch inside has two. -/
theorem dispatchWithin_covers_late :
    let m : Message := ⟨"/a", []⟩
    let late : Method := ⟨.exact "/a", ⟨"late", []⟩⟩
    let once : Method := ⟨.exact "/a", ⟨"once", [.consider fun now =>
      if now.memory.isEmpty then [.remember fun _ => [1], .register "late" "/a" [], .dispatch m] else []]⟩⟩
    let d := dispatchWithin 2 ⟨[once], []⟩ m
    d.ending = .finished ∧ d.count = 1 ∧ d.invocations.map Invocation.method = [once] ∧
    d.space.methods = [once, late] ∧ ∃ before is after,
      Invocation.timelineAll d.invocations = before ++ .dispatched m is 2 .finished :: after ∧
      is.map Invocation.method = [once, late] := by
  intro m late once d
  obtain ⟨own, inside, -, methods, -⟩ := dispatchWithin_covers 2 ⟨[once], []⟩ m d rfl rfl
  refine ⟨rfl, own.counted, own.invoked, methods, [.looked [once], .looked [once], .registered late], _, _, rfl, ?_⟩
  exact (inside [.looked [once], .looked [once], .registered late] m _ 2 .finished _ rfl).2.invoked

end OpenSound.AddressSpace
