import OpenSound.Number.Literal
import OpenSound.Pattern.RegexFault
import OpenSound.Text.Quoted
import OpenSound.Text.Utf8

/-!
# Errors of reading and writing packets

Each error says what was wrong and where. `Error.kind` sorts errors into the kinds that a caller tells apart, and
`Error.message` words them.
-/

namespace OpenSound

/-- What can be wrong with the bytes of a string, a blob or a number, or with a string to be written. -/
inductive DataFault where
  | nulInString (s : String)
  | unterminated
  | paddingTruncated (needed available : Nat)
  | dirtyPadding
  | notUtf8 (fault : Utf8.Fault)
  | blobTruncated (declared available : Nat)
  | endOfData (needed available : Nat)
  deriving DecidableEq, Repr

/-- What can be wrong with one argument of a message: its payload, or a tag that names no type. -/
inductive ArgumentFault where
  | data (fault : DataFault)
  | unsupportedTag
  deriving DecidableEq, Repr

/-- What can be wrong with the text of a number. -/
inductive ValueFault where
  | integer (fault : IntegerFault)
  | literal (fault : LiteralFault)
  deriving DecidableEq, Repr

inductive Error where
  | unsupportedTag (tag : Char)
  | data (fault : DataFault)
  | tagsWithoutComma (tags : String)
  | argument (index : Nat) (tag : Char) (fault : ArgumentFault)
  | invalidValue (text : String) (tag : Char) (fault : ValueFault)
  | emptyArgument
  | argumentShape (text : String)
  | bundleIdentifierFault (fault : DataFault)
  | bundleIdentifier (found : String)
  | bundleTimeTag (fault : DataFault)
  | elementSize (index : Nat) (fault : DataFault)
  | elementTruncated (index declared available : Nat)
  | element (index : Nat) (cause : Error)
  | invalidFraming (length : Nat)
  | unrecognizedPacket (first : UInt8)
  | invalidPattern (pattern : String) (fault : RegexFault)
  | payloadTooLarge (size : Nat)
  | nestingTooDeep (limit : Nat)
  deriving DecidableEq, Repr

/-- The kinds of errors. -/
inductive ErrorKind where
  | unsupportedType
  | malformedData
  | malformedPacket
  | malformedArgument
  | malformedBundle
  | invalidFraming
  | unrecognizedPacket
  | invalidPattern
  | payloadTooLarge
  | nestingTooDeep
  deriving DecidableEq, Repr

namespace DataFault

def detail : DataFault → String
  | nulInString s => "string " ++ Quoted.quote s ++ " contains a NUL byte"
  | unterminated => "string is not NUL-terminated"
  | paddingTruncated needed available => s!"string padding truncated: need {needed} bytes, have {available}"
  | dirtyPadding => "non-zero byte in string padding"
  | notUtf8 fault => "string is not valid UTF-8: " ++ fault.message
  | blobTruncated declared available => s!"blob truncated: declared {declared} bytes, {available} available"
  | endOfData needed available => s!"unexpected end of data: need {needed} bytes, have {available}"

def message (f : DataFault) : String := "malformed data: " ++ f.detail

end DataFault

namespace ValueFault

def message : ValueFault → String
  | integer fault => fault.message
  | literal fault => fault.message

end ValueFault

namespace Error

/-- A type tag between single quotes. -/
def tagText (tag : Char) : String := "type tag '" ++ tag.toString ++ "'"

/-- The message for a tag that names no type. -/
def unsupportedMessage (tag : Char) : String := "unsupported argument type: " ++ tagText tag

end Error

namespace ArgumentFault

/-- The message for an argument with a given tag. -/
def message (tag : Char) : ArgumentFault → String
  | data fault => fault.message
  | unsupportedTag => Error.unsupportedMessage tag

end ArgumentFault

namespace Error

def kind : Error → ErrorKind
  | unsupportedTag _ => .unsupportedType
  | data _ => .malformedData
  | tagsWithoutComma _ => .malformedPacket
  | argument .. | invalidValue .. | emptyArgument | argumentShape _ => .malformedArgument
  | bundleIdentifierFault _ | bundleIdentifier _ | bundleTimeTag _ => .malformedBundle
  | elementSize .. | elementTruncated .. | element .. => .malformedBundle
  | invalidFraming _ => .invalidFraming
  | unrecognizedPacket _ => .unrecognizedPacket
  | invalidPattern .. => .invalidPattern
  | payloadTooLarge _ => .payloadTooLarge
  | nestingTooDeep _ => .nestingTooDeep

/-- Two hexadecimal digits. -/
def hexByte (b : UInt8) : String :=
  String.ofList [Nat.digitChar (b.toNat / 16), Nat.digitChar (b.toNat % 16)]

/-- What an error says. -/
def message : Error → String
  | unsupportedTag tag => unsupportedMessage tag
  | data fault => fault.message
  | tagsWithoutComma tags => "malformed packet: type tag string " ++ Quoted.quote tags ++ " does not start with ','"
  | argument index tag fault =>
    "malformed argument: argument " ++ toString index ++ " ('" ++ tag.toString ++ "'): " ++ fault.message tag
  | invalidValue text tag fault =>
    "malformed argument: invalid value " ++ Quoted.quote text ++ " for " ++ tagText tag ++ ": " ++ fault.message
  | emptyArgument => "malformed argument: empty argument"
  | argumentShape text => "malformed argument: expected <tag>:<value>, got " ++ Quoted.quote text
  | bundleIdentifierFault fault => "malformed bundle: bad identifier: " ++ fault.message
  | bundleIdentifier found =>
    "malformed bundle: identifier is " ++ Quoted.quote found ++ ", expected \x22#bundle\x22"
  | bundleTimeTag fault => "malformed bundle: bad time tag: " ++ fault.message
  | elementSize index fault => "malformed bundle: element " ++ toString index ++ " size: " ++ fault.message
  | elementTruncated index declared available =>
    s!"malformed bundle: element {index} declares {declared} bytes, {available} available"
  | element index cause => "malformed bundle: element " ++ toString index ++ ": " ++ cause.message
  | invalidFraming length => s!"invalid framing: packet length {length} is not a positive multiple of 4"
  | unrecognizedPacket first => "unrecognized packet: first byte 0x" ++ hexByte first
  | invalidPattern pattern fault => "invalid pattern: " ++ pattern ++ ": " ++ fault.message
  | payloadTooLarge size => s!"payload too large: {size} bytes"
  | nestingTooDeep limit => s!"bundle nesting exceeds {limit} levels"

/-- Whether an error is the fault of received bytes, and not of a value to be sent or registered. -/
def isDecodeError (e : Error) : Bool :=
  match e.kind with
  | .unsupportedType | .invalidPattern | .payloadTooLarge => false
  | _ => true

end Error

end OpenSound
