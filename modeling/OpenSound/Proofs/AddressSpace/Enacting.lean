import OpenSound.AddressSpace

/-!
# What handlers do

Which effects the actions of a handler can have, said without performing them: each action has one effect, in order, up
to the first that breaks off. A handler that looks about sees its message, the true replies to what it did so far, and
the patterns of some methods, and goes on with the actions that it decides on.
-/

namespace OpenSound.AddressSpace

/-- What the registration of a handler comes to. -/
def attempt (pattern : String) (h : Handler) : Effect :=
  match method pattern h with
  | .ok t => .registered t
  | .error e => .refused e

/-- The effects that actions have in a run of a handler on a message, after some replies. -/
inductive Enacts (m : Message) : List Reply → List Action → List Effect → Prop
  | done {replies : List Reply} : Enacts m replies [] []
  | register {replies : List Reply} {name pattern : String} {actions rest : List Action} {es : List Effect} :
    Enacts m (replies ++ (attempt pattern ⟨name, actions⟩).reply?.toList) rest es →
    Enacts m replies (.register name pattern actions :: rest) (attempt pattern ⟨name, actions⟩ :: es)
  | dispatch {replies : List Reply} {inner : Message} {is : List Invocation} {count : Nat} {rest : List Action}
    {es : List Effect} : Enacts m (replies ++ [.returned count]) rest es →
    Enacts m replies (.dispatch inner :: rest) (.dispatched inner is count .finished :: es)
  | broken {replies : List Reply} {inner : Message} {is : List Invocation} {count : Nat} {ending : Ending}
    {rest : List Action} : ending ≠ .finished →
    Enacts m replies (.dispatch inner :: rest) [.dispatched inner is count ending]
  | abort {replies : List Reply} {rest : List Action} : Enacts m replies (.abort :: rest) [.aborted]
  | remember {replies : List Reply} {update : Situation → List UInt8} {methods : List Method} {rest : List Action}
    {es : List Effect} : Enacts m replies rest es → Enacts m replies (.remember update :: rest) (.looked methods :: es)
  | consider {replies : List Reply} {decide : Situation → List Action} {methods : List Method} {memory : List UInt8}
    {rest : List Action} {es : List Effect} :
    Enacts m replies (decide ⟨m, replies, methods.map fun t => t.pattern.text, memory⟩ ++ rest) es →
    Enacts m replies (.consider decide :: rest) (.looked methods :: es)

/-- A performance has the effects of its actions. Where it finished, the actions behind them go on with its replies. -/
structure Performs (m : Message) (replies : List Reply) (actions : List Action) (p : Performance) : Prop where
  finished : p.ending = .finished → ∀ {rest : List Action} {es : List Effect},
    Enacts m (replies ++ p.effects.filterMap Effect.reply?) rest es → Enacts m replies (actions ++ rest) (p.effects ++ es)
  broken : p.ending ≠ .finished → ∀ rest : List Action, Enacts m replies (actions ++ rest) p.effects

mutual

private theorem perform_performs (nested : AddressSpace → Message → Dispatch) (m : Message) (replies : List Reply)
    (s : AddressSpace) : ∀ a : Action, Performs m replies [a] (perform nested m replies s a)
  | .register name pattern actions => by
    obtain ⟨effects, finished⟩ : (perform nested m replies s (.register name pattern actions)).effects =
        [attempt pattern ⟨name, actions⟩] ∧
        (perform nested m replies s (.register name pattern actions)).ending = .finished := by
      cases made : method pattern ⟨name, actions⟩ <;> simp only [perform, attempt, made, and_self]
    refine ⟨fun _ => ?_, absurd finished⟩
    rw [effects]
    intro rest es others
    refine .register ?_
    cases reply : (attempt pattern ⟨name, actions⟩).reply? <;> simpa [reply] using others
  | .dispatch inner => by
    rw [perform]
    refine ⟨fun finished => ?_, fun broken rest => .broken broken⟩
    simp only at finished
    simp only [finished]
    exact .dispatch
  | .abort => ⟨nofun, fun _ _ => .abort⟩
  | .remember update => by
    refine ⟨fun _ {rest es} others => .remember ?_, absurd rfl⟩
    have same : replies ++ [Effect.looked s.methods].filterMap Effect.reply? = replies := List.append_nil replies
    rw [perform, same] at others
    exact others
  | .consider decide => by
    obtain ⟨finished, broken⟩ := performAll_performs nested m replies s (decide (s.situation m replies))
    rw [perform]
    exact ⟨fun ended _ _ others => .consider (finished ended others), fun ended rest => .consider (broken ended rest)⟩

private theorem performAll_performs (nested : AddressSpace → Message → Dispatch) (m : Message) (replies : List Reply)
    (s : AddressSpace) : ∀ actions : List Action, Performs m replies actions (performAll nested m replies s actions)
  | [] => by
    refine ⟨fun _ {rest es} others => ?_, absurd rfl⟩
    simpa [performAll] using others
  | a :: actions => by
    have first := perform_performs nested m replies s a
    rw [performAll]
    by_cases ended : (perform nested m replies s a).ending = .finished
    · obtain ⟨finished, broken⟩ := performAll_performs nested m
        (replies ++ (perform nested m replies s a).effects.filterMap Effect.reply?) (perform nested m replies s a).space
        actions
      rw [if_pos ended]
      refine ⟨fun ended' {rest es} others => ?_, fun ended' rest => first.finished ended (broken ended' rest)⟩
      -- what follows goes on with the replies to the first action, and then with those to the others
      rw [List.filterMap_append, ← List.append_assoc] at others
      rw [List.append_assoc]
      exact first.finished ended (finished ended' others)
    · rw [if_neg ended]
      exact ⟨fun ended' => absurd ended' ended, fun _ rest => first.broken ended (actions ++ rest)⟩

end

/-- A run of a handler has the effects of its actions. -/
theorem run_enacts (nested : AddressSpace → Message → Dispatch) (m : Message) (s : AddressSpace) (t : Method) :
    Enacts m [] t.handler.actions (run nested m s t).effects := by
  obtain ⟨finished, broken⟩ := performAll_performs nested m [] s t.handler.actions
  rw [← List.append_nil t.handler.actions]
  by_cases ended : (run nested m s t).ending = .finished
  · rw [← List.append_nil (run nested m s t).effects]
    exact finished ended .done
  · exact broken ended []

end OpenSound.AddressSpace
