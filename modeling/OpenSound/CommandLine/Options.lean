import OpenSound.Number.Integer

/-!
# The arguments of the command line

Options stand before or after a command and its operands. An option with a value takes it from the rest of its own
argument or from the next one, and each may be given once. After two dashes alone everything is an operand.
-/

namespace OpenSound.CommandLine

inductive Protocol where
  | udp
  | tcp
  deriving DecidableEq, Repr

namespace Protocol

def ofName? : String → Option Protocol
  | "udp" => some udp
  | "tcp" => some tcp
  | _ => none

/-- A protocol as it is shown. -/
def title : Protocol → String
  | udp => "Udp"
  | tcp => "Tcp"

end Protocol

/-- Listens for messages that match a pattern. -/
structure ListenCommand where
  protocol : Protocol
  host : String
  port : Nat
  pattern : String
  asJson : Bool

/-- Sends one message, in a bundle of its own if that is asked for. -/
structure SendCommand where
  protocol : Protocol
  host : String
  port : Nat
  inBundle : Bool
  address : String
  arguments : List String

inductive Command where
  | listen (c : ListenCommand)
  | send (c : SendCommand)

/-- Why there is no command to run: the arguments are wrong, or help or the version was asked for. -/
inductive Refusal where
  | usage
  | help
  | version
  deriving DecidableEq, Repr

/-- The options of the program and its commands. -/
inductive Flag where
  | logLevel
  | jsonLogs
  | protocol
  | host
  | port
  | json
  | bundle
  | help
  | version
  deriving DecidableEq, Repr

/-- Where an argument stands: before the command, or after one of the two. -/
inductive Place where
  | top
  | listen
  | send
  deriving DecidableEq, Repr

namespace Flag

def takesValue : Flag → Bool
  | logLevel | protocol | host | port => true
  | _ => false

/-- The options of each place with their long names, and their short ones if they have any. -/
def known : Place → List (Flag × String × List Char)
  | .top => [(logLevel, "log-level", ['l']), (jsonLogs, "json-logs", []), (help, "help", ['h']),
      (version, "version", ['V'])]
  | .listen => [(protocol, "protocol", ['p']), (host, "bind", ['b']), (port, "port", ['P']), (json, "json", []),
      (logLevel, "log-level", ['l']), (jsonLogs, "json-logs", []), (help, "help", ['h'])]
  | .send => [(host, "host", ['H']), (port, "port", ['P']), (protocol, "protocol", ['p']), (bundle, "bundle", []),
      (logLevel, "log-level", ['l']), (jsonLogs, "json-logs", []), (help, "help", ['h'])]

def ofLong? (place : Place) (name : String) : Option Flag :=
  ((known place).find? fun k => k.2.1 == name).map (·.1)

def ofShort? (place : Place) (c : Char) : Option Flag :=
  ((known place).find? fun k => k.2.2.contains c).map (·.1)

/-- A port is an integer of 16 bits. -/
def port? (text : String) : Option Nat :=
  match IntegerRange.read (.signed 64) text.toList with
  | .ok i => if 0 ≤ i ∧ i < UInt16.size then some i.toNat else none
  | .error _ => none

/-- Whether a text will do as the value of an option. -/
def accepts : Flag → String → Bool
  | protocol, text => (Protocol.ofName? text).isSome
  | port, text => (port? text).isSome
  | _, _ => true

end Flag

/-- The arguments as far as they are read: the options given at this place with their values, the operands, the
    option whose value comes next, and whether everything from now on is an operand. -/
structure Scan where
  place : Place
  given : List (Flag × String)
  operands : List String
  pending : Option Flag
  onlyOperands : Bool

namespace Scan

def start : Scan := ⟨.top, [], [], none, false⟩

/-- Notes an option with its value. -/
def give (s : Scan) (f : Flag) (value : String) : Except Refusal Scan :=
  if f = .help then .error .help
  else if f = .version then .error .version
  else if s.given.any (·.1 = f) ∨ !f.accepts value then .error .usage
  else .ok { s with given := (f, value) :: s.given, pending := none }

/-- Takes an operand: before a command it names the command. -/
def operand (s : Scan) (text : String) : Except Refusal Scan :=
  match s.place with
  | .top =>
    if s.onlyOperands then .error .usage
    else if text = "listen" then .ok { start with place := .listen }
    else if text = "send" then .ok { start with place := .send }
    else if text = "help" then .error .help
    else .error .usage
  | .listen => if s.operands = [] then .ok { s with operands := [text] } else .error .usage
  | .send => .ok { s with operands := s.operands ++ [text] }

/-- Options by their letters. The rest of the argument after the letter of an option with a value is the value,
    less an equals sign; if nothing is left, the next argument is. -/
def shorts (s : Scan) : List Char → Except Refusal Scan
  | [] => .ok s
  | c :: rest =>
    match Flag.ofShort? s.place c with
    | none => .error .usage
    | some f =>
      if f.takesValue then
        match rest with
        | [] => .ok { s with pending := some f }
        | '=' :: value => s.give f (String.ofList value)
        | value => s.give f (String.ofList value)
      else
        match s.give f "" with
        | .ok s => shorts s rest
        | .error e => .error e

/-- An option by its long name, with its value after an equals sign or in the next argument. -/
def long (s : Scan) (text : List Char) : Except Refusal Scan :=
  match Flag.ofLong? s.place (String.ofList (text.takeWhile (· ≠ '='))), text.dropWhile (· ≠ '=') with
  | none, _ => .error .usage
  | some f, [] => if f.takesValue then .ok { s with pending := some f } else s.give f ""
  | some f, _ :: value => if f.takesValue then s.give f (String.ofList value) else .error .usage

/-- Takes one argument. -/
def step (s : Scan) (argument : String) : Except Refusal Scan :=
  match s.pending, s.onlyOperands, argument.toList with
  | some _, _, '-' :: _ :: _ => .error .usage
  | some f, _, _ => s.give f argument
  | none, true, _ => s.operand argument
  | none, false, ['-', '-'] => .ok { s with onlyOperands := true }
  | none, false, '-' :: '-' :: text => s.long text
  | none, false, '-' :: c :: rest => s.shorts (c :: rest)
  | none, false, _ => s.operand argument

/-- Takes all arguments. -/
def run (s : Scan) : List String → Except Refusal Scan
  | [] => .ok s
  | a :: rest =>
    match s.step a with
    | .ok s => run s rest
    | .error e => .error e

/-- The value of an option, or a default. -/
def value (s : Scan) (f : Flag) (default : String) : String :=
  match s.given.find? (·.1 = f) with
  | some g => g.2
  | none => default

def has (s : Scan) (f : Flag) : Bool := s.given.any (·.1 = f)

/-- The port where none is given. -/
def defaultPort : Nat := 8000

def port (s : Scan) : Nat := (Flag.port? (s.value .port (toString defaultPort))).getD defaultPort

def protocol (s : Scan) : Protocol := (Protocol.ofName? (s.value .protocol "udp")).getD .udp

/-- The command that all arguments together ask for. -/
def command (s : Scan) : Except Refusal Command :=
  match s.pending, s.place, s.operands with
  | some _, _, _ => .error .usage
  | none, .top, _ => .error .usage
  | none, .listen, operands =>
    .ok (.listen ⟨s.protocol, s.value .host "0.0.0.0", s.port, operands.head?.getD "/*", s.has .json⟩)
  | none, .send, [] => .error .usage
  | none, .send, address :: arguments =>
    .ok (.send ⟨s.protocol, s.value .host "127.0.0.1", s.port, s.has .bundle, address, arguments⟩)

end Scan

/-- Reads the arguments of the program. -/
def Command.ofArguments (arguments : List String) : Except Refusal Command :=
  match Scan.start.run arguments with
  | .ok s => s.command
  | .error e => .error e

end OpenSound.CommandLine
