import OpenSound.AddressSpace
import OpenSound.Argument
import OpenSound.CommandLine.Options
import OpenSound.CommandLine.Run
import OpenSound.Error
import OpenSound.Instant
import OpenSound.Json.Packet
import OpenSound.Json.Text
import OpenSound.Json.Value
import OpenSound.Main
import OpenSound.Number.BinaryFormat
import OpenSound.Number.Decimal
import OpenSound.Number.Integer
import OpenSound.Number.Literal
import OpenSound.Number.Nearest
import OpenSound.Number.Shortest
import OpenSound.Packet
import OpenSound.Pattern.Basic
import OpenSound.Pattern.Piece
import OpenSound.Pattern.Regex
import OpenSound.Pattern.RegexFault
import OpenSound.Pattern.RegexText
import OpenSound.Text.CharSet
import OpenSound.Text.Combining
import OpenSound.Text.Quoted
import OpenSound.Text.Unprintable
import OpenSound.Text.Utf8
import OpenSound.TimeTag
import OpenSound.Transport.Client
import OpenSound.Transport.Delivery
import OpenSound.Transport.Error
import OpenSound.Transport.Frame
import OpenSound.Transport.Server
import OpenSound.Transport.Session
import OpenSound.Wire.Bytes
import OpenSound.Wire.Packet
import OpenSound.Wire.Value
import OpenSound.Proofs.AddressSpace.BreakingOff
import OpenSound.Proofs.AddressSpace.Dispatching
import OpenSound.Proofs.AddressSpace.History
import OpenSound.Proofs.AddressSpace.Recording
import OpenSound.Proofs.AddressSpace.Timeline
import OpenSound.Proofs.Argument
import OpenSound.Proofs.CommandLine.JsonLines
import OpenSound.Proofs.CommandLine.Listening
import OpenSound.Proofs.Json.Packet
import OpenSound.Proofs.Json.Text
import OpenSound.Proofs.Number.Integer
import OpenSound.Proofs.Pattern.Acceptance
import OpenSound.Proofs.Pattern.ClassReading
import OpenSound.Proofs.Pattern.Classes
import OpenSound.Proofs.Pattern.Glob
import OpenSound.Proofs.Pattern.Matching
import OpenSound.Proofs.Pattern.Meaning
import OpenSound.Proofs.Pattern.Plain
import OpenSound.Proofs.Pattern.Reading
import OpenSound.Proofs.Pattern.Runaway
import OpenSound.Proofs.Text.Utf8
import OpenSound.Proofs.TimeTag
import OpenSound.Proofs.Transport.Connecting
import OpenSound.Proofs.Transport.Delivery
import OpenSound.Proofs.Transport.Ending
import OpenSound.Proofs.Transport.Framing
import OpenSound.Proofs.Transport.Sending
import OpenSound.Proofs.Transport.Serving
import OpenSound.Proofs.Transport.Turns
import OpenSound.Proofs.Wire.Arguments
import OpenSound.Proofs.Wire.Canonical
import OpenSound.Proofs.Wire.Elements
import OpenSound.Proofs.Wire.Failures
import OpenSound.Proofs.Wire.FirstFailure
import OpenSound.Proofs.Wire.Grammar
import OpenSound.Proofs.Wire.Layout
import OpenSound.Proofs.Wire.Normal
import OpenSound.Proofs.Wire.Prefixes
import OpenSound.Proofs.Wire.RoundTrip
import OpenSound.Proofs.Wire.Writing
import OpenSound.Proofs.Wire.Nesting
import OpenSound.Proofs.Wire.Refusing
import OpenSound.Proofs.Wire.Positions
import OpenSound.Proofs.Wire.Sequences
import OpenSound.Proofs.Instant
import OpenSound.Proofs.Wire.Weight
