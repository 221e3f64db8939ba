import OpenSound.Transport.Delivery
import OpenSound.Transport.Frame

/-!
# Servers

A server delivers what it receives to its address space. On a connection packets are framed, and the first frame
that is too large or cut short ends the connection; connections that are open at the same time take turns. A
datagram is one packet, cut to the size of the receive buffer.
-/

namespace OpenSound

/-- The largest payload of a datagram. -/
def maxDatagram : Nat := 65507

/-- The largest packet of a connection where nothing else is configured. -/
def defaultMaxFrame : Nat := 65535

/-- A server: the largest packet it takes, and its address space. -/
structure Server where
  maxPacket : Nat
  space : AddressSpace

namespace Server

/-- Registers a handler on the server's address space. -/
def register (s : Server) (pattern : String) (h : Handler) : Except TransportError Server :=
  match s.space.register pattern h with
  | .ok space => .ok { s with space }
  | .error e => .error (.codec e)

/-- Registers handlers that only record, each named by its pattern; says for each what came of it. -/
def registerAll (s : Server) : List String → Server × List (Except TransportError Unit)
  | [] => (s, [])
  | pattern :: patterns =>
    match s.register pattern ⟨pattern, []⟩ with
    | .ok s =>
      let (s, rs) := registerAll s patterns
      (s, .ok () :: rs)
    | .error e =>
      let (s, rs) := registerAll s patterns
      (s, .error e :: rs)

/-- Delivers packets until a handler does not finish. -/
def deliverUntilAborted (s : AddressSpace) : List (List UInt8) → AddressSpace × List Delivery
  | [] => (s, [])
  | packet :: packets =>
    let d := s.deliver packet
    if d.dispatch.ending = .finished then
      let (s, ds) := deliverUntilAborted d.dispatch.space packets
      (s, d :: ds)
    else (d.dispatch.space, [d])

/-- Serves one connection: delivers the packets at the front of what arrives on it. -/
def serveConnection (s : Server) (arriving : Stream) : Server × List Delivery :=
  let (space, ds) := deliverUntilAborted s.space (arriving.packets s.maxPacket)
  ({ s with space }, ds)

/-- A connection that is served: what is still to arrive on it, unless its reader has come to its end, and what was
    delivered of it so far. -/
structure Connection where
  arriving : Option Stream
  deliveries : List Delivery

/-- A connection that nothing was read from yet. -/
def Connection.opened (arriving : Stream) : Connection := ⟨some arriving, []⟩

/-- One turn of a connection: its reader reads a packet and delivers it. It comes to its end where it finds no packet,
    and where a handler does not finish. -/
def takeTurn (s : Server) (c : Connection) : Server × Connection :=
  match c.arriving with
  | none => (s, c)
  | some arriving =>
    match readFrame s.maxPacket arriving with
    | (.packet packet, rest) =>
      let d := s.space.deliver packet
      ({ s with space := d.dispatch.space },
        ⟨if d.dispatch.ending = .finished then some rest else none, c.deliveries ++ [d]⟩)
    | _ => (s, { c with arriving := none })

/-- Serves connections at the same time: gives them turns in some order, each turn to the connection at an index. -/
def serveTurns (s : Server) (connections : List Connection) : List Nat → Server × List Connection
  | [] => (s, connections)
  | i :: turns =>
    match connections[i]? with
    | none => serveTurns s connections turns
    | some c =>
      let (s, c) := s.takeTurn c
      serveTurns s (connections.set i c) turns

/-- What connections that take turns deliver, in the order of the turns, each with the index of its connection. -/
def deliveriesInTurns (s : Server) (connections : List Connection) : List Nat → List (Nat × Delivery)
  | [] => []
  | i :: turns =>
    match connections[i]? with
    | none => deliveriesInTurns s connections turns
    | some c =>
      let (s, c') := s.takeTurn c
      (c'.deliveries.drop c.deliveries.length).map (fun d => (i, d)) ++
        deliveriesInTurns s (connections.set i c') turns

/-- Serves connections one after another. -/
def serveConnections (s : Server) : List Stream → Server × List (List Delivery)
  | [] => (s, [])
  | arriving :: rest =>
    let (s, ds) := s.serveConnection arriving
    let (s, dss) := serveConnections s rest
    (s, ds :: dss)

/-- What a server receives of a datagram. -/
def receive (s : Server) (datagram : List UInt8) : List UInt8 := datagram.take (min s.maxPacket maxDatagram)

/-- Serves one datagram. -/
def serveDatagram (s : Server) (datagram : List UInt8) : Server × Delivery :=
  let d := s.space.deliver (s.receive datagram)
  ({ s with space := d.dispatch.space }, d)

/-- Serves datagrams one after another. -/
def serveDatagrams (s : Server) : List (List UInt8) → Server × List Delivery
  | [] => (s, [])
  | datagram :: rest =>
    let (s, d) := s.serveDatagram datagram
    let (s, ds) := serveDatagrams s rest
    (s, d :: ds)

end Server

end OpenSound
