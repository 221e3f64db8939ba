import OpenSound.Transport.Server

/-!
# Clients

A client sends packets to one peer. Over a connection it also delivers what the peer sends back to its own address
space, until the peer closes or sends a frame that cannot be read; from then on it is not connected, although it
was never told to disconnect. The reader of a connection goes on for itself, and may come to its end when the client
already has another connection.
-/

namespace OpenSound

/-- Where the reader of a connection is: it reads on, it reads on until it has to wait, or it is gone. -/
inductive ReaderState where
  | running
  | stopping
  | gone
  deriving DecidableEq, Repr

/-- The reader of a connection, with the number of the flag that it takes down at its end. -/
structure Reader where
  flag : Nat
  state : ReaderState
  deriving DecidableEq, Repr

/-- Tells a reader to stop, which takes effect where it waits for the next time. -/
def Reader.stop (r : Reader) : Reader := if r.state = .running then { r with state := .stopping } else r

/-- Lets a reader that was told to stop do so. -/
def Reader.halt (r : Reader) : Reader := if r.state = .stopping then { r with state := .gone } else r

/-- A reader that is no more. -/
def Reader.lose (r : Reader) : Reader := { r with state := .gone }

/-- What a client has of its connections, which are numbered as they were opened: the one that it writes to, the one
    whose reader it can stop, and the flag that it looks at, which is up as long as the reader that shares it has not
    come to its end. Readers go on for themselves. A client that has not opened a connection yet looks at a flag that it
    shares with nobody. -/
structure Link where
  writer : Option Nat
  reader : Option Nat
  flag : Nat
  flags : List Bool
  readers : List Reader
  deriving DecidableEq, Repr

namespace Link

/-- No connection was opened yet. -/
def closed : Link := ⟨none, none, 0, [false], []⟩

/-- Whether there is a connection to write to whose flag is up. -/
def isOpen (l : Link) : Bool := l.writer.isSome && l.flags[l.flag]? == some true

/-- Takes down a flag. -/
def takeDown (l : Link) (flag : Nat) : Link := { l with flags := l.flags.set flag false }

/-- Changes the reader of a connection. -/
def onReader (l : Link) (k : Nat) (change : Reader → Reader) : Link := { l with readers := l.readers.modify k change }

/-- The reader of a connection, unless it is gone. -/
def liveReader? (l : Link) (k : Nat) : Option Reader :=
  match l.readers[k]? with
  | some r => if r.state = .gone then none else some r
  | none => none

/-- Lets go of the connection, and tells its reader to stop. -/
def release (l : Link) : Link :=
  match l.reader with
  | none => { l with writer := none }
  | some k => { l with writer := none, reader := none }.onReader k .stop

/-- Opens a connection, with a flag and a reader of its own. -/
def establish (l : Link) : Link where
  writer := some l.readers.length
  reader := some l.readers.length
  flag := l.flags.length
  flags := l.flags ++ [true]
  readers := l.readers ++ [⟨l.flags.length, .running⟩]

/-- The first connection is open. -/
def opened : Link := closed.establish

end Link

/-- The bytes of a packet that a client may send: they can be written and are not too many. -/
def outgoing (maxPacket : Nat) (p : Packet) : Except TransportError (List UInt8) :=
  match p.encode with
  | .error e => .error (.codec e)
  | .ok bytes => if maxPacket < bytes.length then .error (.packetTooLarge bytes.length maxPacket) else .ok bytes

/-- A client of a connection. -/
structure StreamClient where
  maxPacket : Nat
  space : AddressSpace
  link : Link

namespace StreamClient

/-- A client that was never connected. -/
def new (maxPacket : Nat) (space : AddressSpace) : StreamClient := ⟨maxPacket, space, .closed⟩

def isConnected (c : StreamClient) : Bool := c.link.isOpen

/-- Connects, given what the network says to a new connection. A client that is connected stays as it is, and the
    network is not asked. Any other lets go of what it has of an earlier connection before it asks. -/
def connect (c : StreamClient) (peer : String) (attempt : Except NetworkFault Unit) :
    Except TransportError Unit × StreamClient :=
  if c.isConnected then (.ok (), c)
  else
    match attempt with
    | .ok () => (.ok (), { c with link := c.link.release.establish })
    | .error fault => (.error (.connectionFailed peer fault), { c with link := c.link.release })

/-- Closes the connection, if there is one, and takes down the flag, whatever the network says to the end of the
    connection: it is given up in any case. -/
def disconnect (c : StreamClient) (_ : Except StreamFault Unit) : Except TransportError Unit × StreamClient :=
  (.ok (), { c with link := c.link.release.takeDown c.link.flag })

/-- Sends a packet over a connection: what became of it, and what is on the connection afterwards. Only a connected
    client looks at the packet at all. A packet within the client's limit may still be too long for a frame. -/
def sendOver (c : StreamClient) (wire : Sink) (p : Packet) : Except TransportError Unit × Sink :=
  if c.isConnected then
    match outgoing c.maxPacket p with
    | .error e => (.error e, wire)
    | .ok bytes =>
      match writeFrame wire bytes with
      | (.ok (), wire) => (.ok (), wire)
      | (.error e, wire) => (.error (.sendFailed (.other e.message)), wire)
  else (.error .notConnected, wire)

/-- Sends packets one after another: what became of each, and what is on the connection afterwards. -/
def sendAll (c : StreamClient) (wire : Sink) : List Packet → List (Except TransportError Unit) × Sink
  | [] => ([], wire)
  | p :: ps =>
    let (r, wire) := c.sendOver wire p
    let (rs, wire) := sendAll c wire ps
    (r :: rs, wire)

/-- The frame that goes out for a packet. -/
def send (c : StreamClient) (p : Packet) : Except TransportError (List UInt8) :=
  match c.sendOver ⟨[], none⟩ p with
  | (.ok (), wire) => .ok wire.held
  | (.error e, _) => .error e

/-- What a reader did in one pass: nothing, as it is gone; it delivered a packet; or it came to its end. -/
inductive Pass where
  | idle
  | delivered (d : Delivery)
  | ended

/-- One pass of the reader of a connection, given what it finds there. A packet is delivered to the client's address
    space; the reader is gone if a handler does not finish, and then the flag stays as it is. Anything else is the end
    of the reader, and takes down the flag that it shares. -/
def pass (c : StreamClient) (k : Nat) (found : FrameOutcome) : StreamClient × Pass :=
  match c.link.liveReader? k with
  | none => (c, .idle)
  | some r =>
    match found with
    | .packet bytes =>
      let d := c.space.deliver bytes
      let link := if d.dispatch.ending = .finished then c.link else c.link.onReader k .lose
      ({ c with space := d.dispatch.space, link }, .delivered d)
    | _ => ({ c with link := (c.link.onReader k .lose).takeDown r.flag }, .ended)

/-- The reader of a connection waits, which is where it stops if it was told to. -/
def halt (c : StreamClient) (k : Nat) : StreamClient := { c with link := c.link.onReader k .halt }

/-- Passes of the reader of a connection, one after another, and what they delivered. -/
def passAll (c : StreamClient) (k : Nat) : List FrameOutcome → StreamClient × List Delivery
  | [] => (c, [])
  | found :: rest =>
    match c.pass k found with
    | (c, .delivered d) =>
      let (c, ds) := passAll c k rest
      (c, d :: ds)
    | (c, _) => passAll c k rest

/-- Delivers what arrives on the connection up to the end of its reader. Every frame takes at least its length, so as
    many passes as there are bytes find all packets, and one more finds the end. -/
def receiveAll (c : StreamClient) (arriving : Stream) : StreamClient × List Delivery :=
  match c.link.reader with
  | none => (c, [])
  | some k => c.passAll k ((readFrames c.maxPacket (arriving.remaining + 1) arriving).map (·.1))

end StreamClient

/-- A client that sends datagrams. -/
structure DatagramClient where
  maxPacket : Nat
  isBound : Bool

namespace DatagramClient

/-- A client without a socket. -/
def new (maxPacket : Nat) : DatagramClient := ⟨maxPacket, false⟩

def isConnected (c : DatagramClient) : Bool := c.isBound

/-- Binds a new socket and connects it to the peer, given what the network says to each. A failure keeps the socket
    that was there before. -/
def connect (c : DatagramClient) (own peer : String) (binding attempt : Except NetworkFault Unit) :
    Except TransportError Unit × DatagramClient :=
  match binding, attempt with
  | .error fault, _ => (.error (.bindFailed own fault), c)
  | .ok (), .error fault => (.error (.connectionFailed peer fault), c)
  | .ok (), .ok () => (.ok (), { c with isBound := true })

/-- Drops the socket. -/
def disconnect (c : DatagramClient) : DatagramClient := { c with isBound := false }

/-- The datagram that goes out for a packet. A socket takes what fits the largest payload over IPv4 and refuses more; one of
    IPv6 takes twenty bytes more. -/
def send (c : DatagramClient) (p : Packet) : Except TransportError (List UInt8) :=
  if c.isConnected then
    match outgoing c.maxPacket p with
    | .error e => .error e
    | .ok bytes => if maxDatagram < bytes.length then .error (.sendFailed .tooLong) else .ok bytes
  else .error .notConnected

end DatagramClient

end OpenSound
