import OpenSound.CommandLine.Options
import OpenSound.Json.Packet
import OpenSound.Transport.Client

/-!
# Running the commands

What a command prints, what it sends, and how it exits, given what the network says to it. A failure is reported with
its causes, one under the other, and exits with one; wrong arguments exit with two and print nothing to the output.

The log is left out. It goes to the same output, so what is said of the output is said of a run whose log is off.
-/

namespace OpenSound.CommandLine

/-- A failure of a command: what is reported first, and its causes in order. -/
structure Trouble where
  summary : String
  causes : List String

namespace Trouble

/-- Text indented by four blanks, or by a number in their place on the first line. -/
def indent (first rest : String) (text : String) : String :=
  match (text.toList.splitOn '\n').map String.ofList with
  | [] => first
  | line :: lines => first ++ line ++ String.join (lines.map fun l => "\n" ++ rest ++ l)

/-- Causes with their numbers from a first one on. -/
def numbered (n : Nat) : List String → String
  | [] => ""
  | cause :: causes =>
    let number := toString n
    let first := String.ofList (List.replicate (5 - number.length) ' ') ++ number ++ ": "
    "\n" ++ indent first "       " cause ++ numbered (n + 1) causes

/-- A failure as it is reported. -/
def report (t : Trouble) : String :=
  "Error: " ++ t.summary ++ (match t.causes with
    | [] => ""
    | [cause] => "\n\nCaused by:\n" ++ indent "    " "    " cause
    | causes => "\n\nCaused by:" ++ numbered 0 causes) ++ "\n"

/-- The failure that an error of a connection or socket is. -/
def ofTransport (e : TransportError) : Trouble :=
  ⟨e.message, match e with
    | .codec cause => [cause.message]
    | .stream fault => [fault.message]
    | _ => []⟩

end Trouble

/-- How a run of the program ended, what it printed, and what reached the peer if anything did. -/
structure Outcome where
  exitCode : Nat
  output : String
  errors : String
  received : Option (List UInt8)

/-- A run that ended with a failure. -/
def Outcome.failed (output : String) (t : Trouble) (received : Option (List UInt8)) : Outcome :=
  ⟨1, output, t.report, received⟩

/-- A message as the listener prints it. -/
def messageLine (asJson : Bool) (m : Message) : String :=
  if asJson then String.ofList m.toJson.text ++ "\n"
  else m.address ++ " " ++ m.tags ++ " " ++ " ".intercalate (m.arguments.map Argument.display) ++ "\n"

/-- The lines for the messages that a delivery handed to the listener. -/
def deliveryLines (asJson : Bool) (d : Delivery) : String :=
  String.join (d.dispatch.invocations.map fun i => messageLine asJson i.message)

/-- What reaches a listener until it is stopped: what arrives on connections, with the turns that they take, and
    datagrams. Each datagram is handled by a task of its own; they stand in the order in which these tasks deliver them,
    which may be any. -/
structure Traffic where
  connections : List Stream
  turns : List Nat
  datagrams : List (List UInt8)

namespace ListenCommand

/-- The address to bind. -/
def endpoint (c : ListenCommand) : String := c.host ++ ":" ++ toString c.port

/-- The first line of output. -/
def banner (c : ListenCommand) : String :=
  "OSC Listening for " ++ c.pattern ++ " on " ++ c.endpoint ++ " (" ++ c.protocol.title ++ ")\n"

/-- The address space of the listener, given what the network says to its address, unless that is refused or the
    pattern is wrong. -/
def prepare (c : ListenCommand) (binding : Except NetworkFault Unit) : Except Trouble AddressSpace :=
  match binding with
  | .error fault => .error (.ofTransport (.bindFailed c.endpoint fault))
  | .ok () =>
    match AddressSpace.empty.register c.pattern ⟨"print", []⟩ with
    | .ok space => .ok space
    | .error e => .error ⟨"Invalid address pattern " ++ c.pattern, [e.message]⟩

/-- The line that says where the listener can be reached. -/
def readyLine (endpoint : String) : String := "OK Ready on " ++ endpoint ++ "\n"

/-- The line at the end of a listener that is stopped. -/
def stoppedLine : String := "Stopped\n"

/-- What is delivered to the space of a listener. A listener of one protocol sees nothing of the other. -/
def deliveries (c : ListenCommand) (space : AddressSpace) (t : Traffic) : List Delivery :=
  match c.protocol with
  | .tcp => (Server.deliveriesInTurns ⟨defaultMaxFrame, space⟩ (t.connections.map .opened) t.turns).map (·.2)
  | .udp => (Server.serveDatagrams ⟨maxDatagram, space⟩ t.datagrams).2

/-- Listens with the log off, given what the network says to the address, and is stopped after what reaches it there. -/
def run (c : ListenCommand) (binding : Except NetworkFault Unit) (ready : String) (t : Traffic) : Outcome :=
  match c.prepare binding with
  | .error trouble => .failed c.banner trouble none
  | .ok space =>
    let lines := (c.deliveries space t).map (deliveryLines c.asJson)
    ⟨0, c.banner ++ readyLine ready ++ String.join lines ++ stoppedLine, "", none⟩

end ListenCommand

namespace SendCommand

def message (c : SendCommand) : Message := ⟨c.address, c.arguments.map Argument.string⟩

def packet (c : SendCommand) : Packet :=
  if c.inBundle then .bundle .immediate [.message c.message] else .message c.message

/-- The first line of output. -/
def banner (c : SendCommand) : String := "OSC Sending " ++ c.message.display ++ "\n"

/-- The bytes that go out to the peer, given what the network says to the client's socket: the packet in a frame, or
    as a datagram to an IPv4 address. -/
def outgoing (c : SendCommand) (peer : String) (binding attempt : Except NetworkFault Unit) :
    Except TransportError (List UInt8) :=
  match c.protocol with
  | .tcp =>
    match (StreamClient.new defaultMaxFrame .empty).connect peer attempt with
    | (.ok (), client) => client.send c.packet
    | (.error e, _) => .error e
  | .udp =>
    match (DatagramClient.new maxDatagram).connect "0.0.0.0:0" peer binding attempt with
    | (.ok (), client) => client.send c.packet
    | (.error e, _) => .error e

/-- What reaches the peer: over a connection all that went out, as soon as there is a connection, and otherwise a
    datagram that went out while the peer listened. -/
def received (c : SendCommand) (isConnected isListening : Bool) (r : Except TransportError (List UInt8)) :
    Option (List UInt8) :=
  match c.protocol, r with
  | .tcp, .ok bytes => some bytes
  | .tcp, .error _ => if isConnected then some [] else none
  | .udp, .ok bytes => if isListening then some bytes else none
  | .udp, .error _ => none

/-- The failure to find the address of the peer. -/
def unresolved (c : SendCommand) (fault : NetworkFault) : Trouble := ⟨"Failed to resolve " ++ c.host, [fault.message]⟩

/-- The line that says where the message went. -/
def sentLine (c : SendCommand) : String := "OK Sent to " ++ c.host ++ ":" ++ toString c.port ++ "\n"

/-- How sending ended. -/
def outcome (c : SendCommand) (r : Except Trouble Unit) (received : Option (List UInt8)) : Outcome :=
  match r with
  | .ok () => ⟨0, c.banner ++ c.sentLine, "", received⟩
  | .error t => .failed c.banner t received

/-- Sends the message to its peer, given what the network says to its name, which is the peer's address in words, and to
    the client's socket. -/
def run (c : SendCommand) (resolution : Except NetworkFault String) (binding attempt : Except NetworkFault Unit)
    (isListening : Bool) : Outcome :=
  match resolution with
  | .error fault => c.outcome (.error (c.unresolved fault)) none
  | .ok peer =>
    let r := c.outgoing peer binding attempt
    c.outcome ((r.map fun _ => ()).mapError Trouble.ofTransport) (c.received attempt.isOk isListening r)

end SendCommand

/-- How the program is called. -/
def usageText : String :=
  "Usage: osc [OPTIONS] listen [-p udp|tcp] [-b HOST] [-P PORT] [--json] [PATTERN]\n" ++
    "       osc [OPTIONS] send [-p udp|tcp] [-H HOST] [-P PORT] [--bundle] ADDRESS [ARGUMENT..]\n\n" ++
    "Options: -l, --log-level LEVEL; --json-logs; -h, --help; -V, --version\n"

/-- The name and the version of the program. -/
def versionText : String := "osc 0.1.0\n"

/-- A run whose arguments were refused. -/
def Outcome.refused : Refusal → Outcome
  | .usage => ⟨2, "", usageText, none⟩
  | .help => ⟨0, usageText, "", none⟩
  | .version => ⟨0, versionText, "", none⟩

end OpenSound.CommandLine
