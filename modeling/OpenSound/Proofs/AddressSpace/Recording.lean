import OpenSound.Proofs.AddressSpace.Timeline

/-!
# Handlers that only record

A handler that neither registers nor dispatches nor breaks off can only change what handlers remember. Where all
handlers of a space are of this kind, every dispatch finishes, its methods stay as they are, and what was called are
the methods that match, one after another.
-/

namespace OpenSound

/-- An action that only records, whatever the handler comes to see. -/
inductive Action.Records : Action → Prop
  | remember (update : Situation → List UInt8) : Records (.remember update)
  | consider {decide : Situation → List Action} : (∀ now, ∀ a ∈ decide now, Records a) → Records (.consider decide)

namespace AddressSpace

def OnlyRecords (s : AddressSpace) : Prop := ∀ t ∈ s.methods, ∀ a ∈ t.handler.actions, a.Records

/-- A performance that finished, registered nothing and invoked nobody. -/
structure IsQuiet (s : AddressSpace) (p : Performance) : Prop where
  ending : p.ending = .finished
  methods : p.space.methods = s.methods
  effects : ∀ e ∈ p.effects, ∃ methods, e = .looked methods

variable {nested : AddressSpace → Message → Dispatch} {m : Message}

private theorem performAll_isQuiet {actions : List Action}
    (each : ∀ a ∈ actions, ∀ replies s, IsQuiet s (perform nested m replies s a)) (replies : List Reply)
    (s : AddressSpace) : IsQuiet s (performAll nested m replies s actions) := by
  induction actions generalizing replies s with
  | nil => exact ⟨rfl, rfl, nofun⟩
  | cons a rest ih =>
    obtain ⟨first, others⟩ := List.forall_mem_cons.mp each
    have quiet := first replies s
    have rest := ih others (replies ++ (perform nested m replies s a).effects.filterMap Effect.reply?)
      (perform nested m replies s a).space
    rw [performAll, if_pos quiet.ending]
    refine ⟨rest.ending, rest.methods.trans quiet.methods, fun e member => ?_⟩
    rcases List.mem_append.mp member with early | late
    · exact quiet.effects e early
    · exact rest.effects e late

private theorem perform_isQuiet {a : Action} (records : a.Records) (replies : List Reply) (s : AddressSpace) :
    IsQuiet s (perform nested m replies s a) := by
  induction records generalizing replies s with
  | remember update => exact ⟨rfl, rfl, fun e member => ⟨s.methods, List.mem_singleton.mp member⟩⟩
  | @consider decide _ ih =>
    have quiet := performAll_isQuiet (fun a member => ih (s.situation m replies) a member) replies s
    refine ⟨quiet.ending, quiet.methods, fun e member => ?_⟩
    rcases List.mem_cons.mp member with first | later
    · exact ⟨s.methods, first⟩
    · exact quiet.effects e later

private theorem allNotes_looked {handler : String} {effects : List Effect}
    (quiet : ∀ e ∈ effects, ∃ methods, e = .looked methods) :
    Effect.allNotes handler effects = [] := by
  induction effects with
  | nil => rfl
  | cons e effects ih =>
    obtain ⟨⟨methods, rfl⟩, others⟩ := List.forall_mem_cons.mp quiet
    rw [Effect.allNotes, Effect.notes, ih others, List.append_nil]

/-- The call of a handler, as it is noted. -/
def called (m : Message) (t : Method) : Note := .invoked t.handler.name m

private theorem invokeAll_recording (nested : AddressSpace → Message → Dispatch) (m : Message) {ts : List Method}
    (records : ∀ t ∈ ts, ∀ a ∈ t.handler.actions, a.Records) (s : AddressSpace) :
    (invokeAll nested m s ts).ending = .finished ∧ (invokeAll nested m s ts).space.methods = s.methods ∧
      (invokeAll nested m s ts).notes = (matching ts m.address).map (called m) := by
  induction ts generalizing s with
  | nil => exact ⟨rfl, rfl, rfl⟩
  | cons t ts ih =>
    obtain ⟨own, others⟩ := List.forall_mem_cons.mp records
    rw [invokeAll]
    by_cases hit : t.isMatch m.address = true
    · have quiet : IsQuiet s (run nested m s t) :=
        performAll_isQuiet (fun a member => perform_isQuiet (own a member)) [] s
      obtain ⟨ending, methods, notes⟩ := ih others (run nested m s t).space
      rw [if_pos hit, if_pos quiet.ending, matching_cons_hit hit]
      refine ⟨ending, methods.trans quiet.methods, ?_⟩
      rw [List.map_cons, ← notes, Dispatch.notes, Invocation.allNotes, Invocation.notes,
        allNotes_looked quiet.effects]
      rfl
    · rw [if_neg hit, matching_cons_miss hit]
      exact ih others s

/-- A dispatch to handlers that only record finishes and leaves the methods as they are. It calls those that match, each
    once and in order, and nobody else is called on the way. -/
theorem dispatch_recording {s : AddressSpace} (records : s.OnlyRecords) (m : Message) :
    (s.dispatch m).ending = .finished ∧ (s.dispatch m).space.methods = s.methods ∧
      (s.dispatch m).notes = (matching s.methods m.address).map (called m) ∧
      Covers s.methods m (s.dispatch m).invocations (s.dispatch m).count := by
  obtain ⟨ending, methods, notes⟩ := invokeAll_recording (dispatchWithin 999) m records s
  exact ⟨ending, methods, notes, (dispatchWithin_isSound maxNesting s m).1.2 ending⟩

end AddressSpace

end OpenSound
