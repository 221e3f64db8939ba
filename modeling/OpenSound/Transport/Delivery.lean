import OpenSound.AddressSpace
import OpenSound.Wire.Packet

/-!
# Delivery of received packets

Received bytes are decoded and dispatched if they are a message. A message that nobody wants, a bundle, and bytes
that are no packet are each noted in the log and dropped.
-/

namespace OpenSound

inductive LogLevel where
  | debug
  | warn
  deriving DecidableEq, Repr

/-- Why a delivery invoked no handler. -/
inductive Dropped where
  | unmatched (address : String)
  | bundle (elements : Nat)
  | malformed (length : Nat) (e : Error)
  | failed (e : Error)
  deriving DecidableEq, Repr

namespace Dropped

def level : Dropped → LogLevel
  | unmatched _ => .debug
  | _ => .warn

/-- The log line for a packet from a peer. -/
def line (peer : String) : Dropped → String
  | unmatched address => "No method matches " ++ address ++ " (from " ++ peer ++ ")"
  | bundle elements =>
    s!"Dropping bundle with {elements} element(s) from " ++ peer ++ ": bundles are not dispatched"
  | malformed length e => "Dropping malformed packet from " ++ peer ++ s!" ({length} bytes): " ++ e.message
  | failed e => "Failed to handle packet from " ++ peer ++ ": " ++ e.message

end Dropped

/-- What a delivery did, and what it left in the log. -/
structure Delivery where
  dispatch : AddressSpace.Dispatch
  log : List Dropped

namespace AddressSpace

/-- A delivery that invokes nothing. -/
def drop (s : AddressSpace) (why : Dropped) : Delivery := ⟨⟨s, [], 0, .finished⟩, [why]⟩

/-- Delivers received bytes. -/
def deliver (s : AddressSpace) (bytes : List UInt8) : Delivery :=
  match Packet.decode bytes with
  | .ok (.message m) =>
    let d := s.dispatch m
    ⟨d, if d.ending = .finished ∧ d.count = 0 then [.unmatched m.address] else []⟩
  | .ok (.bundle _ elements) => s.drop (.bundle elements.length)
  | .error e => if e.isDecodeError then s.drop (.malformed bytes.length e) else s.drop (.failed e)

/-- Delivers one packet after another. -/
def deliverAll (s : AddressSpace) : List (List UInt8) → AddressSpace × List Delivery
  | [] => (s, [])
  | packet :: packets =>
    let d := s.deliver packet
    let (s, ds) := deliverAll d.dispatch.space packets
    (s, d :: ds)

end AddressSpace

end OpenSound
