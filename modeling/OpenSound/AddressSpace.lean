import OpenSound.Packet
import OpenSound.Pattern.Basic

/-!
# Address spaces

An address space is a list of methods, each a pattern and a handler, in the order of their registration. A message
is dispatched to the methods whose patterns match its address, among those that were registered when the dispatch
started. A handler may register further methods and dispatch further messages while it runs, and it may break off,
which ends every dispatch that is under way. It decides what to do by what it can see: its message, what came of its
own actions, the registered patterns, and bytes that the handlers of a space share as their memory. What happened is
kept as a trace.

A space is a value here. That tasks share it, the lock around its methods, and the copy that a registration makes of
methods that a dispatch still holds are left out: a dispatch keeps the methods that it started with, as that copy lets
it. A handler that breaks off is one that panics, and the panic unwinds to whoever started the outermost dispatch and
can go on. A program that is built to abort, as the release build of the command line is, ends there instead.
-/

namespace OpenSound

/-- What a handler is told of something it did: its pattern was registered or refused, or its dispatch has returned
    the number of handlers invoked. -/
inductive Reply where
  | registered
  | refused (e : Error)
  | returned (count : Nat)
  deriving DecidableEq, Repr

/-- What a handler can see while it runs. The replies are those to its own actions since it was invoked. -/
structure Situation where
  message : Message
  replies : List Reply
  patterns : List String
  memory : List UInt8

/-- Something a handler does when it is invoked. -/
inductive Action where
  | register (name pattern : String) (actions : List Action)
  | dispatch (m : Message)
  | abort
  | remember (update : Situation → List UInt8)
  | consider (decide : Situation → List Action)

/-- A handler: its name, and what it does in order. -/
structure Handler where
  name : String
  actions : List Action

/-- A registered handler with its pattern. -/
structure Method where
  pattern : Pattern
  handler : Handler

namespace Method

def isMatch (m : Method) (address : String) : Bool := m.pattern.isMatch address

/-- A method as text. -/
def describe (m : Method) : String :=
  "Method \x7b pattern: " ++ Quoted.quote m.pattern.text ++ ", .. \x7d"

end Method

/-- How a dispatch or a handler ended: it finished, a handler broke off, or dispatches were nested too deep. -/
inductive Ending where
  | finished
  | aborted
  | tooDeep
  deriving DecidableEq, Repr

mutual

/-- One run of a method's handler on a message, and what it did. -/
inductive Invocation where
  | mk (method : Method) (m : Message) (effects : List Effect)

/-- Something that a handler did. A handler that looks about sees the methods of that moment. -/
inductive Effect where
  | registered (t : Method)
  | refused (e : Error)
  | looked (methods : List Method)
  | dispatched (m : Message) (invocations : List Invocation) (count : Nat) (ending : Ending)
  | aborted

end

namespace Invocation

def method : Invocation → Method
  | mk t _ _ => t

def message : Invocation → Message
  | mk _ m _ => m

def effects : Invocation → List Effect
  | mk _ _ es => es

end Invocation

/-- What a handler is told of an effect. -/
def Effect.reply? : Effect → Option Reply
  | .registered _ => some .registered
  | .refused e => some (.refused e)
  | .dispatched _ _ count .finished => some (.returned count)
  | _ => none

/-- What is noted of a trace: each invocation, then its refused registrations and its finished dispatches with the
    number of handlers that they invoked. -/
inductive Note where
  | invoked (handler : String) (m : Message)
  | refused (handler : String) (e : Error)
  | dispatched (handler : String) (count : Nat)

mutual

/-- The notes of an invocation. -/
def Invocation.notes : Invocation → List Note
  | .mk t m effects => .invoked t.handler.name m :: Effect.allNotes t.handler.name effects

/-- The notes of an effect of a handler. -/
def Effect.notes (handler : String) : Effect → List Note
  | .registered _ | .looked _ | .aborted => []
  | .refused e => [.refused handler e]
  | .dispatched _ invocations count ending =>
    Invocation.allNotes invocations ++ if ending = .finished then [.dispatched handler count] else []

def Invocation.allNotes : List Invocation → List Note
  | [] => []
  | i :: is => i.notes ++ Invocation.allNotes is

def Effect.allNotes (handler : String) : List Effect → List Note
  | [] => []
  | e :: es => e.notes handler ++ Effect.allNotes handler es

end

/-- A list of methods in the order of their registration, and what their handlers remember. -/
structure AddressSpace where
  methods : List Method
  memory : List UInt8

namespace AddressSpace

/-- The space without methods, whose handlers start with a given memory. -/
def startingWith (memory : List UInt8) : AddressSpace := ⟨[], memory⟩

/-- The space without methods, with nothing to remember yet. -/
def empty : AddressSpace := startingWith []

def size (s : AddressSpace) : Nat := s.methods.length

def isEmpty (s : AddressSpace) : Bool := s.size == 0

/-- The patterns of the methods. -/
def patterns (s : AddressSpace) : List String := s.methods.map fun m => m.pattern.text

/-- A space as text. -/
def describe (s : AddressSpace) : String :=
  "AddressSpace \x7b methods: [" ++ ", ".intercalate (s.patterns.map Quoted.quote) ++ "] \x7d"

/-- The method for a pattern and a handler, if the pattern compiles. -/
def method (pattern : String) (h : Handler) : Except Error Method :=
  match Pattern.compile pattern with
  | .ok p => .ok ⟨p, h⟩
  | .error fault => .error (.invalidPattern pattern fault)

/-- A space with a method behind all others. -/
def add (s : AddressSpace) (t : Method) : AddressSpace := { s with methods := s.methods ++ [t] }

/-- Registers a handler behind all others. -/
def register (s : AddressSpace) (pattern : String) (h : Handler) : Except Error AddressSpace :=
  match method pattern h with
  | .ok t => .ok (s.add t)
  | .error e => .error e

/-- What a handler sees that was invoked on a message and got some replies. -/
def situation (s : AddressSpace) (m : Message) (replies : List Reply) : Situation :=
  ⟨m, replies, s.patterns, s.memory⟩

/-- What a dispatch did: the space after it, the handlers that it invoked itself, how many of them finished, and how
    it ended. -/
structure Dispatch where
  space : AddressSpace
  invocations : List Invocation
  count : Nat
  ending : Ending

/-- What the actions of a handler did. -/
structure Performance where
  space : AddressSpace
  effects : List Effect
  ending : Ending

mutual

/-- Performs an action of a handler that was invoked on a message, given how a message is dispatched on the way and
    the replies that the handler has so far. -/
def perform (nested : AddressSpace → Message → Dispatch) (m : Message) (replies : List Reply)
    (s : AddressSpace) : Action → Performance
  | .register name pattern actions =>
    match method pattern ⟨name, actions⟩ with
    | .ok t => ⟨s.add t, [.registered t], .finished⟩
    | .error e => ⟨s, [.refused e], .finished⟩
  | .dispatch inner =>
    let d := nested s inner
    ⟨d.space, [.dispatched inner d.invocations d.count d.ending], d.ending⟩
  | .abort => ⟨s, [.aborted], .aborted⟩
  | .remember update => ⟨{ s with memory := update (s.situation m replies) }, [.looked s.methods], .finished⟩
  | .consider decide =>
    let p := performAll nested m replies s (decide (s.situation m replies))
    { p with effects := .looked s.methods :: p.effects }

/-- Performs actions in order, until one does not finish. -/
def performAll (nested : AddressSpace → Message → Dispatch) (m : Message) (replies : List Reply)
    (s : AddressSpace) : List Action → Performance
  | [] => ⟨s, [], .finished⟩
  | a :: rest =>
    let p := perform nested m replies s a
    if p.ending = .finished then
      let q := performAll nested m (replies ++ p.effects.filterMap Effect.reply?) p.space rest
      { q with effects := p.effects ++ q.effects }
    else p

end

/-- Runs the handler of a method on a message. -/
def run (nested : AddressSpace → Message → Dispatch) (m : Message) (s : AddressSpace) (t : Method) :
    Performance :=
  performAll nested m [] s t.handler.actions

/-- Invokes those of some methods that match a message on it, one after another, until a handler does not finish. -/
def invokeAll (nested : AddressSpace → Message → Dispatch) (m : Message) (s : AddressSpace) :
    List Method → Dispatch
  | [] => ⟨s, [], 0, .finished⟩
  | t :: ts =>
    if t.isMatch m.address then
      let p := run nested m s t
      if p.ending = .finished then
        let d := invokeAll nested m p.space ts
        { d with invocations := .mk t m p.effects :: d.invocations, count := d.count + 1 }
      else ⟨p.space, [.mk t m p.effects], 0, p.ending⟩
    else invokeAll nested m s ts

/-- Dispatches a message to the methods that are there now, with at most a number of dispatches inside one another. -/
def dispatchWithin : Nat → AddressSpace → Message → Dispatch
  | 0, s, _ => ⟨s, [], 0, .tooDeep⟩
  | levels + 1, s, m => invokeAll (dispatchWithin levels) m s s.methods

/-- How deep dispatches may be nested. -/
def maxNesting : Nat := 1000

/-- Dispatches a message to every method whose pattern matches its address. -/
def dispatch (s : AddressSpace) (m : Message) : Dispatch := dispatchWithin maxNesting s m

/-- Invokes one method on a message, whether its pattern matches or not. -/
def invoke (s : AddressSpace) (t : Method) (m : Message) : Dispatch :=
  let p := run (dispatchWithin maxNesting) m s t
  ⟨p.space, [.mk t m p.effects], 1, p.ending⟩

/-- Dispatches a packet within a depth of nesting; bundles are not dispatched. -/
def dispatchPacketWithin (levels : Nat) (s : AddressSpace) : Packet → Dispatch
  | .message m => dispatchWithin levels s m
  | .bundle .. => ⟨s, [], 0, .finished⟩

/-- Dispatches a packet. -/
def dispatchPacket (s : AddressSpace) (p : Packet) : Dispatch := dispatchPacketWithin maxNesting s p

/-- What is noted of a dispatch. -/
def Dispatch.notes (d : Dispatch) : List Note := Invocation.allNotes d.invocations

end AddressSpace

end OpenSound
