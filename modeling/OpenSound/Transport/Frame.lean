import OpenSound.Transport.Error
import OpenSound.Wire.Bytes

/-!
# Packets on a byte stream

On a stream every packet stands behind its length in four bytes. A stream arrives in pieces, and a read takes at
most one piece at a time; a connection may be reset between them. A sink may have room for a limited number of
bytes, and then takes as many as fit.
-/

namespace OpenSound

/-- What a read from a stream can meet. -/
inductive Arrival where
  | bytes (piece : List UInt8)
  | reset
  deriving DecidableEq

/-- What is still to arrive on a stream. -/
abbrev Stream := List Arrival

namespace Stream

/-- How many bytes are still to arrive. -/
def remaining : Stream → Nat
  | [] => 0
  | .bytes piece :: rest => piece.length + remaining rest
  | .reset :: rest => remaining rest

/-- Takes a number of bytes, piece by piece. The end of the stream, an empty piece and a reset each fail, and the
    pieces taken before them are lost. -/
def take (wanted : Nat) : Stream → Except StreamFault (List UInt8) × Stream
  | [] => if wanted = 0 then (.ok [], []) else (.error .unexpectedEnd, [])
  | .reset :: rest => if wanted = 0 then (.ok [], .reset :: rest) else (.error .reset, rest)
  | .bytes piece :: rest =>
    if wanted = 0 then (.ok [], .bytes piece :: rest)
    else if piece = [] then (.error .unexpectedEnd, rest)
    else if wanted < piece.length then (.ok (piece.take wanted), .bytes (piece.drop wanted) :: rest)
    else
      match take (wanted - piece.length) rest with
      | (.ok more, rest) => (.ok (piece ++ more), rest)
      | (.error fault, rest) => (.error fault, rest)

end Stream

/-- The outcome of reading one packet from a stream. -/
inductive FrameOutcome where
  | packet (bytes : List UInt8)
  | ended
  | failed (e : TransportError)
  deriving DecidableEq

/-- The length prefix of a frame. -/
def framePrefixWidth : Nat := 4

/-- Reads one packet of at most a given size. An end of the stream before the length is complete counts as the end
    of the packets. -/
def readFrame (max : Nat) (s : Stream) : FrameOutcome × Stream :=
  match Stream.take framePrefixWidth s with
  | (.error .unexpectedEnd, s) => (.ended, s)
  | (.error fault, s) => (.failed (.stream fault), s)
  | (.ok header, s) =>
    let length := Wire.ofBigEndian header
    if max < length then (.failed (.packetTooLarge length max), s)
    else
      match Stream.take length s with
      | (.ok packet, s) => (.packet packet, s)
      | (.error fault, s) => (.failed (.stream fault), s)

/-- Reads packets a number of times, also after an end or a failure. After each, the stream that is left. -/
def readFrames (max : Nat) : Nat → Stream → List (FrameOutcome × Stream)
  | 0, _ => []
  | n + 1, s =>
    let r := readFrame max s
    r :: readFrames max n r.2

/-- A packet behind its length. -/
def frame (packet : List UInt8) : List UInt8 := Wire.bigEndian framePrefixWidth packet.length ++ packet

/-- What a sink holds, and how much it can hold if there is a limit. -/
structure Sink where
  held : List UInt8
  room : Option Nat

namespace Sink

/-- Puts bytes into a sink; where they do not all fit, as many as do are kept. -/
def put (s : Sink) (bytes : List UInt8) : Except StreamFault Unit × Sink :=
  let all := s.held ++ bytes
  match s.room with
  | none => (.ok (), { s with held := all })
  | some room =>
    if all.length ≤ room then (.ok (), { s with held := all })
    else (.error .full, { s with held := all.take room })

end Sink

/-- Writes one packet behind its length. -/
def writeFrame (s : Sink) (packet : List UInt8) : Except TransportError Unit × Sink :=
  if UInt32.size ≤ packet.length then (.error (.packetTooLarge packet.length (UInt32.size - 1)), s)
  else
    match s.put (frame packet) with
    | (.ok (), s) => (.ok (), s)
    | (.error fault, s) => (.error (.stream fault), s)

/-- Writes one packet after another. After each, the outcome and the sink. -/
def writeFrames (s : Sink) : List (List UInt8) → List (Except TransportError Unit × Sink)
  | [] => []
  | packet :: packets =>
    let r := writeFrame s packet
    r :: writeFrames r.2 packets

namespace Stream

/-- The packets of a stream up to the first outcome that is none. Each of them takes at least its length prefix,
    so as many steps as there are bytes are enough. -/
def packetsWithin (max : Nat) : Nat → Stream → List (List UInt8)
  | 0, _ => []
  | steps + 1, s =>
    match readFrame max s with
    | (.packet bytes, s) => bytes :: packetsWithin max steps s
    | _ => []

/-- The packets of at most a given size at the front of a stream, up to its end or the first failure. -/
def packets (max : Nat) (s : Stream) : List (List UInt8) := packetsWithin max s.remaining s

end Stream

end OpenSound
