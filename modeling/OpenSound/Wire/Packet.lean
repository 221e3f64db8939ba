import OpenSound.Wire.Value

/-!
# Packets on the wire

A message is its address, its tags and its arguments; a bundle is an identifier, a time tag, and its elements, each
after its size. Writing reserves four bytes for a size, writes the element behind them and then fills the size in.
Reading accepts bundles at most thirty-two deep.
-/

namespace OpenSound

namespace Wire

/-- The identifier at the front of a bundle, with its final zero. -/
def bundleHeader : List UInt8 := [35, 98, 117, 110, 100, 108, 101, 0]

/-- The text of the identifier. -/
def bundleIdentifier : String := "#bundle"

/-- How deep bundles may be nested when they are read. -/
def maxDepth : Nat := 32

/-- A buffer with a number written over the four bytes at an offset. -/
def fillSize (buffer : List UInt8) (offset size : Nat) : List UInt8 :=
  buffer.take offset ++ bigEndian 4 size ++ buffer.drop (offset + 4)

end Wire

open Wire

namespace Message

/-- Writes a message: address, tags, arguments. -/
def write (m : Message) : Writer :=
  (writeString m.address).andThen ((writeString m.tags).andThen (.all (m.arguments.map writeArgument)))

/-- The bytes of a message. -/
def encode (m : Message) : Except Error (List UInt8) := m.write.bytes

/-- The message at the front of some bytes. What follows the last argument is ignored. -/
def decode (bytes : List UInt8) : Except Error Message :=
  match readString bytes with
  | (.error fault, _) => .error (.data fault)
  | (.ok address, rest) =>
    match readString rest with
    | (.error fault, _) => .error (.data fault)
    | (.ok tags, rest) =>
      match readArguments tags rest with
      | (.error e, _) => .error e
      | (.ok arguments, _) => .ok ⟨address, arguments⟩

end Message

namespace Packet

mutual

/-- Writes a packet behind what a buffer holds. -/
def write : Packet → Writer
  | message m, buffer => m.write buffer
  | bundle t elements, buffer => writeElements elements (buffer ++ bundleHeader ++ bigEndian 8 t.toRaw.toNat)

/-- Writes elements, each behind four bytes that are filled in when its size is known. -/
def writeElements : List Packet → Writer
  | [], buffer => (.ok (), buffer)
  | p :: ps, buffer =>
    match p.write (buffer ++ [0, 0, 0, 0]) with
    | (.error e, written) => (.error e, written)
    | (.ok (), written) =>
      let size := written.length - buffer.length - 4
      if UInt32.size ≤ size then (.error (.payloadTooLarge size), written)
      else writeElements ps (fillSize written buffer.length size)

end

/-- The bytes of a packet. -/
def encode (p : Packet) : Except Error (List UInt8) := Writer.bytes p.write

end Packet

namespace Bundle

def encode (b : Bundle) : Except Error (List UInt8) := b.toPacket.encode

/-- What an element's error is for the bundle around it: nesting that is too deep stays as it is, and anything
    else says which element it was. -/
def elementError (index : Nat) : Error → Error
  | .nestingTooDeep limit => .nestingTooDeep limit
  | e => .element index e

/-- Reads elements up to the end of the bytes, the first of which has a given index. Running out of bytes before a
    size is the normal end. -/
def readElements (child : List UInt8 → Except Error Packet) (index : Nat) (bytes : List UInt8) :
    Except Error (List Packet) :=
  if bytes.isEmpty then .ok []
  else
    match _read : readNumber 4 bytes with
    | (.error fault, _) => .error (.elementSize index fault)
    | (.ok size, rest) =>
      if rest.length < size then .error (.elementTruncated index size rest.length)
      else
        match child (rest.take size) with
        | .error e => .error (elementError index e)
        | .ok p =>
          match readElements child (index + 1) (rest.drop size) with
          | .error e => .error e
          | .ok ps => .ok (p :: ps)
termination_by bytes.length
decreasing_by
  simp only [readNumber] at _read
  split at _read
  · cases _read
  · cases _read
    simp at *
    omega

end Bundle

namespace Packet

/-- The packet that some bytes are, given how bundles are read: the first byte tells messages from bundles. -/
def decodeWith (bundle : List UInt8 → Except Error Bundle) (bytes : List UInt8) : Except Error Packet :=
  if bytes.length % 4 ≠ 0 then .error (.invalidFraming bytes.length)
  else
    match bytes with
    | [] => .error (.invalidFraming 0)
    | first :: _ =>
      if first = 47 then (Message.decode bytes).map .message
      else if first = 35 then (bundle bytes).map Bundle.toPacket
      else .error (.unrecognizedPacket first)

end Packet

namespace Bundle

/-- The bundle that some bytes are, where a number of levels of bundles may still be opened. -/
def decodeWithin : Nat → List UInt8 → Except Error Bundle
  | 0, _ => .error (.nestingTooDeep maxDepth)
  | levels + 1, bytes =>
    match readString bytes with
    | (.error fault, _) => .error (.bundleIdentifierFault fault)
    | (.ok identifier, rest) =>
      if identifier ≠ bundleIdentifier then .error (.bundleIdentifier identifier)
      else
        match readTimeTag rest with
        | (.error fault, _) => .error (.bundleTimeTag fault)
        | (.ok t, rest) =>
          match readElements (Packet.decodeWith (decodeWithin levels)) 0 rest with
          | .error e => .error e
          | .ok elements => .ok ⟨t, elements⟩

/-- The bundle that some bytes are. -/
def decode (bytes : List UInt8) : Except Error Bundle := decodeWithin maxDepth bytes

end Bundle

namespace Packet

/-- The packet that some bytes are, where a number of levels of bundles may still be opened. -/
def decodeWithin (levels : Nat) (bytes : List UInt8) : Except Error Packet :=
  decodeWith (Bundle.decodeWithin levels) bytes

/-- The packet that received bytes are. -/
def decode (bytes : List UInt8) : Except Error Packet := decodeWithin maxDepth bytes

end Packet

end OpenSound
