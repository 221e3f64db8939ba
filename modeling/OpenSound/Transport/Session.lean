import OpenSound.Transport.Client

/-!
# Sessions

A session plays a server or a client against a peer, step by step. What the network says to a bind or to a new
connection is an argument of the step that asks it.
-/

namespace OpenSound

namespace Session

/-- What came of a server session: each registration, the patterns registered after it, the largest packet, and
    what each connection or datagram did. -/
structure ServerReport (α : Type) where
  registered : List (Except TransportError Unit)
  patterns : List String
  maxPacket : Nat
  served : List α

/-- A server with recording handlers for some patterns, given what the network says to its address. -/
def startServer (address : String) (binding : Except NetworkFault Unit) (maxPacket : Nat) (patterns : List String) :
    Except TransportError (Server × List (Except TransportError Unit)) :=
  match binding with
  | .error fault => .error (.bindFailed address fault)
  | .ok () => .ok (Server.registerAll ⟨maxPacket, .empty⟩ patterns)

/-- Plays connections to a server, one after another; what each of them delivered. -/
def playConnections (address : String) (binding : Except NetworkFault Unit) (maxPacket : Nat) (patterns : List String)
    (connections : List Stream) : Except TransportError (ServerReport (List Delivery)) :=
  match startServer address binding maxPacket patterns with
  | .error e => .error e
  | .ok (server, registered) =>
    .ok ⟨registered, server.space.patterns, maxPacket, (server.serveConnections connections).2⟩

/-- Plays datagrams to a server, one after another; how many bytes of each were received, and its delivery. -/
def playDatagrams (address : String) (binding : Except NetworkFault Unit) (maxPacket : Nat) (patterns : List String)
    (datagrams : List (List UInt8)) : Except TransportError (ServerReport (Nat × Delivery)) :=
  match startServer address binding maxPacket patterns with
  | .error e => .error e
  | .ok (server, registered) =>
    .ok ⟨registered, server.space.patterns, maxPacket,
      (datagrams.map fun d => (server.receive d).length).zip (server.serveDatagrams datagrams).2⟩

/-- What a client or its peer does next. To connect goes with what the network says to it: to binding a socket, which
    only a client that sends datagrams does, and to reaching the peer. -/
inductive Step where
  | connect (binding attempt : Except NetworkFault Unit)
  | disconnect
  | send (p : Packet)
  | peerClose (bytes : List UInt8)
  | stopListening

/-- What came of a step: an error or nothing, whether the client is connected after it, what was delivered to it,
    what the peer received of a packet, and whether a disconnect closed a connection that the peer still had. -/
structure StepReport where
  outcome : Except TransportError Unit
  isConnected : Bool
  deliveries : List Delivery
  sent : Option (List UInt8)
  closedAtPeer : Bool

/-- A step that only changed or reported the state of the connection. -/
def StepReport.plain (outcome : Except TransportError Unit) (isConnected : Bool) : StepReport :=
  ⟨outcome, isConnected, [], none, false⟩

/-- The outcome of sending, without what was sent. -/
def sendOutcome (r : Except TransportError (List UInt8)) : Except TransportError Unit :=
  match r with
  | .ok _ => .ok ()
  | .error e => .error e

/-- What was sent, if anything. -/
def sentBytes? (r : Except TransportError (List UInt8)) : Option (List UInt8) :=
  match r with
  | .ok bytes => some bytes
  | .error _ => none

/-- The peer as it is named in errors. -/
def peer : String := "127.0.0.1:PORT"

/-- A client of a connection, and whether the peer has the connection open. -/
structure StreamSession where
  client : StreamClient
  isOpenAtPeer : Bool

/-- Plays one step of a client of a connection. That the peer stops listening shows in what the network says to a later
    connect, and in nothing else. -/
def StreamSession.step (s : StreamSession) : Step → StreamSession × StepReport
  | .connect _ attempt =>
    let (r, client) := s.client.connect peer attempt
    (⟨client, client.isConnected⟩, .plain r client.isConnected)
  | .disconnect =>
    let (r, client) := s.client.disconnect (.ok ())
    (⟨client, false⟩, ⟨r, client.isConnected, [], none, s.isOpenAtPeer⟩)
  | .send p =>
    let r := s.client.send p
    (s, ⟨sendOutcome r, s.client.isConnected, [], sentBytes? r, false⟩)
  | .peerClose bytes =>
    if s.isOpenAtPeer then
      let (client, ds) := s.client.receiveAll [.bytes bytes]
      (⟨client, false⟩, ⟨.ok (), client.isConnected, ds, none, false⟩)
    else (s, .plain (.ok ()) s.client.isConnected)
  | .stopListening => (s, .plain (.ok ()) s.client.isConnected)

/-- Plays one step of a client that sends datagrams. Whether the peer listens makes no difference to it. -/
def datagramStep (c : DatagramClient) : Step → DatagramClient × StepReport
  | .connect binding attempt =>
    let (r, c) := c.connect "0.0.0.0:0" peer binding attempt
    (c, .plain r c.isConnected)
  | .disconnect => (c.disconnect, .plain (.ok ()) false)
  | .send p =>
    let r := c.send p
    (c, ⟨sendOutcome r, c.isConnected, [], sentBytes? r, false⟩)
  | .peerClose _ | .stopListening => (c, .plain (.ok ()) c.isConnected)

end Session

end OpenSound
