import OpenSound.CommandLine.Run
import Std.Async.DNS
import Std.Async.Signal
import Std.Async.TCP
import Std.Async.UDP

/-!
# The program

Carries out a command on the network: opens the sockets, hands what they say to the command, and prints.
-/

namespace OpenSound.CommandLine

open Std.Async Std.Net

/-- The result of an action on the network, or the fault that it failed with. -/
def attempt {α : Type} (act : IO α) : IO (Except NetworkFault α) := do
  try return .ok (← act)
  catch e => return .error (.other (toString e))

/-- The address of a host. -/
def resolve (host : String) : IO (Except NetworkFault IPAddr) := do
  match ← attempt (DNS.getAddrInfo host "").block with
  | .error fault => return .error fault
  | .ok found =>
    match found[0]? with
    | some ip => return .ok ip
    | none => return .error .unresolved

/-- The address of a port at a host. -/
def socketAddress (port : Nat) : IPAddr → SocketAddress
  | .v4 ip => .v4 ⟨ip, UInt16.ofNat port⟩
  | .v6 ip => .v6 ⟨ip, UInt16.ofNat port⟩

/-- The bytes as the network takes them. -/
def packed (bytes : List UInt8) : ByteArray := ⟨bytes.toArray⟩

/-- Prints a text and does not keep it back. -/
def printNow (text : String) : IO Unit := do
  let out ← IO.getStdout
  out.putStr text
  out.flush

namespace SendCommand

/-- Sends the message to a peer at an address. -/
def sendTo (c : SendCommand) (peer : SocketAddress) : IO (Except TransportError Unit) := do
  match c.protocol with
  | .tcp =>
    let socket ← TCP.Socket.Client.mk
    match c.outgoing (toString peer) (.ok ()) (← attempt (socket.connect peer).block) with
    | .error e => return .error e
    | .ok bytes =>
      let sending ← attempt do
        (socket.send (packed bytes)).block
        socket.shutdown.block
      return sending.mapError TransportError.sendFailed
  | .udp =>
    let socket ← UDP.Socket.mk
    let binding ← attempt (socket.bind (socketAddress 0 (.v4 (.ofParts 0 0 0 0))))
    match c.outgoing (toString peer) binding (← attempt (socket.connect peer)) with
    | .error e => return .error e
    | .ok bytes =>
      let sending ← attempt (socket.send (packed bytes)).block
      return sending.mapError TransportError.sendFailed

/-- Sends the message to its peer. -/
def execute (c : SendCommand) : IO Outcome := do
  match ← resolve c.host with
  | .error fault => return c.outcome (.error (c.unresolved fault)) none
  | .ok ip => return c.outcome ((← c.sendTo (socketAddress c.port ip)).mapError Trouble.ofTransport) none

end SendCommand

namespace ListenCommand

/-- Delivers a received packet, and prints the messages that the delivery handed on. -/
def receive (c : ListenCommand) (space : AddressSpace) (bytes : List UInt8) : IO Unit :=
  printNow (deliveryLines c.asJson (space.deliver bytes))

/-- How many bytes are taken from a connection at a time. -/
def pieceSize : UInt64 := 4096

/-- Receives the packets of a connection until it ends or a frame is too large, given what was taken from it and is
    not used yet. -/
partial def readConnection (c : ListenCommand) (space : AddressSpace) (socket : TCP.Socket.Client) (held : Stream) :
    Async Unit := do
  match readFrame defaultMaxFrame held with
  | (.packet bytes, rest) =>
    c.receive space bytes
    readConnection c space socket rest
  | (.failed (.packetTooLarge ..), _) => return
  | _ =>
    match ← socket.recv? pieceSize with
    | some piece => readConnection c space socket (held ++ [.bytes piece.data.toList])
    | none => return

/-- Accepts one connection after another, and reads each of them on its own. -/
partial def acceptConnections (c : ListenCommand) (space : AddressSpace) (server : TCP.Socket.Server) :
    Async Unit := do
  let socket ← server.accept
  background (readConnection c space socket [])
  acceptConnections c space server

/-- Receives one datagram after another. -/
partial def receiveDatagrams (c : ListenCommand) (space : AddressSpace) (socket : UDP.Socket) : Async Unit := do
  let (bytes, _) ← socket.recv (UInt64.ofNat maxDatagram)
  c.receive space bytes.data.toList
  receiveDatagrams c space socket

/-- Says that the listener is ready, serves, and stops when it is interrupted. -/
def serve (ready : SocketAddress) (serving : Async Unit) : IO Outcome := do
  printNow (readyLine (toString ready))
  let interrupted ← (← Signal.Waiter.mk .sigint false).wait
  discard (async serving).block
  discard interrupted.block
  return ⟨0, stoppedLine, "", none⟩

/-- Listens at the address of the command. -/
def execute (c : ListenCommand) : IO Outcome := do
  printNow c.banner
  let failed (t : Trouble) : Outcome := .failed "" t none
  match ← resolve c.host with
  | .error fault => return failed (.ofTransport (.bindFailed c.endpoint fault))
  | .ok ip =>
    match c.protocol with
    | .tcp =>
      let server ← TCP.Socket.Server.mk
      let binding ← attempt do
        server.bind (socketAddress c.port ip)
        server.listen 128
      match c.prepare binding with
      | .error t => return failed t
      | .ok space => serve (← server.getSockName) (acceptConnections c space server)
    | .udp =>
      let socket ← UDP.Socket.mk
      match c.prepare (← attempt (socket.bind (socketAddress c.port ip))) with
      | .error t => return failed t
      | .ok space => serve (← socket.getSockName) (receiveDatagrams c space socket)

end ListenCommand

/-- Carries out the command that the arguments ask for. -/
def execute (arguments : List String) : IO Outcome :=
  match Command.ofArguments arguments with
  | .ok (.send c) => c.execute
  | .ok (.listen c) => c.execute
  | .error refusal => return .refused refusal

end OpenSound.CommandLine

/-- Runs the program, prints what came of it, and exits with its code. -/
def main (arguments : List String) : IO UInt32 := do
  let outcome ← OpenSound.CommandLine.execute arguments
  OpenSound.CommandLine.printNow outcome.output
  IO.eprint outcome.errors
  return UInt32.ofNat outcome.exitCode
