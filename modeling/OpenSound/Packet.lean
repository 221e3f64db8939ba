import OpenSound.Argument

/-!
# Packets

A packet is a message, with an address and arguments, or a bundle, with a time tag and packets of its own.
-/

namespace OpenSound

/-- A message to an address. -/
structure Message where
  address : String
  arguments : List Argument
  deriving DecidableEq

/-- A message, or a time tag with packets that belong to it. -/
inductive Packet where
  | message (m : Message)
  | bundle (timeTag : TimeTag) (elements : List Packet)

/-- The bundles among the packets. -/
structure Bundle where
  timeTag : TimeTag
  elements : List Packet

namespace Message

/-- The tags of the arguments after a comma. -/
def tags (m : Message) : String := String.ofList (',' :: m.arguments.map Argument.tag)

/-- The parts of the address between slashes, the empty one before the first slash included. -/
def parts (m : Message) : List String := (m.address.toList.splitOn '/').map String.ofList

/-- A message as text. -/
def display (m : Message) : String :=
  "Message\x7bAddress: " ++ m.address ++ ", Arguments: [" ++ " ".intercalate (m.arguments.map Argument.display) ++
    "]\x7d"

/-- Equality of messages up to the equality of their arguments as values. -/
def same (a b : Message) : Bool :=
  a.address == b.address && a.arguments.length == b.arguments.length &&
    (a.arguments.zip b.arguments).all fun (x, y) => x.same y

end Message

namespace Packet

mutual

/-- A packet as text. -/
def display : Packet → String
  | message m => m.display
  | bundle _ elements => "Bundle: \x7b" ++ displayAll elements ++ "\x7d"

def displayAll : List Packet → String
  | [] => ""
  | p :: ps => p.display ++ displayAll ps

end

mutual

/-- Equality of packets up to the equality of arguments as values. -/
def same : Packet → Packet → Bool
  | message a, message b => a.same b
  | bundle t ps, bundle u qs => t == u && sameAll ps qs
  | _, _ => false

def sameAll : List Packet → List Packet → Bool
  | [], [] => true
  | p :: ps, q :: qs => p.same q && sameAll ps qs
  | _, _ => false

end

/-- A packet inside a number of bundles, each immediate and with that one element. -/
def wrapped (p : Packet) : Nat → Packet
  | 0 => p
  | n + 1 => bundle .immediate [wrapped p n]

end Packet

namespace Bundle

def toPacket (b : Bundle) : Packet := .bundle b.timeTag b.elements

end Bundle

end OpenSound
