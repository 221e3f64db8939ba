import OpenSound.Error
import OpenSound.TimeTag

/-!
# Message arguments

The nine types of argument, their tags, how an argument is shown, and how one is read from text. Floating point
arguments are bit patterns, so that nothing is lost between the wire and a value.
-/

namespace OpenSound

/-- An argument of a message. -/
inductive Argument where
  | nil
  | int32 (i : Int32)
  | float32 (bits : UInt32)
  | string (s : String)
  | blob (data : List UInt8)
  | bool (b : Bool)
  | int64 (i : Int64)
  | float64 (bits : UInt64)
  | timeTag (t : TimeTag)
  deriving DecidableEq

namespace Argument

/-- The letter that names the type in a message's tags. -/
def tag : Argument → Char
  | nil => 'N'
  | int32 _ => 'i'
  | float32 _ => 'f'
  | string _ => 's'
  | blob _ => 'b'
  | bool true => 'T'
  | bool false => 'F'
  | int64 _ => 'h'
  | float64 _ => 'd'
  | timeTag _ => 't'

/-- Equality of values: floating point numbers are compared as numbers and everything else as it is. -/
def same : Argument → Argument → Bool
  | float32 a, float32 b => BinaryFormat.single.equal a.toNat b.toNat
  | float64 a, float64 b => BinaryFormat.double.equal a.toNat b.toNat
  | a, b => a == b

/-- An argument as text. -/
def display : Argument → String
  | nil => "nil"
  | int32 i => toString i.toInt
  | float32 bits => BinaryFormat.single.display bits.toNat
  | string s => Quoted.quote s
  | blob data => "<blob " ++ toString data.length ++ " bytes>"
  | bool true => "true"
  | bool false => "false"
  | int64 i => toString i.toInt
  | float64 bits => BinaryFormat.double.display bits.toNat
  | timeTag t => t.display

/-- Reads the text of an integer. -/
def readInteger (range : IntegerRange) (tag : Char) (text : String) (build : Int → Argument) :
    Except Error Argument :=
  match range.read text.toList with
  | .ok i => .ok (build i)
  | .error fault => .error (.invalidValue text tag (.integer fault))

/-- Reads the text of a floating point number. -/
def readLiteral (format : BinaryFormat) (tag : Char) (text : String) (build : Nat → Argument) :
    Except Error Argument :=
  match format.read text.toList with
  | .ok bits => .ok (build bits)
  | .error fault => .error (.invalidValue text tag (.literal fault))

/-- The argument with a tag and the text of its value. Types without a payload ignore the text, a blob takes its
    bytes, and a time tag its 64-bit value. -/
def ofText (tag : Char) (text : String) : Except Error Argument :=
  match tag with
  | 'N' => .ok nil
  | 'T' => .ok (bool true)
  | 'F' => .ok (bool false)
  | 'i' => readInteger (.signed 32) tag text fun i => int32 (Int32.ofInt i)
  | 'f' => readLiteral .single tag text fun bits => float32 (UInt32.ofNat bits)
  | 's' => .ok (string text)
  | 'b' => .ok (blob (Utf8.encode text))
  | 'h' => readInteger (.signed 64) tag text fun i => int64 (Int64.ofInt i)
  | 'd' => readLiteral .double tag text fun bits => float64 (UInt64.ofNat bits)
  | 't' => readInteger (.unsigned 64) tag text fun i => timeTag (.ofRaw (UInt64.ofNat i.toNat))
  | _ => .error (.unsupportedTag tag)

/-- Reads a tag alone, or a tag, a colon and the text of a value. -/
def parse (text : String) : Except Error Argument :=
  match text.toList with
  | [] => .error .emptyArgument
  | [tag] => ofText tag ""
  | tag :: ':' :: value => ofText tag (String.ofList value)
  | _ => .error (.argumentShape text)

def asInt32? : Argument → Option Int32
  | int32 i => some i
  | _ => none

/-- The bit pattern of a 32-bit floating point argument. -/
def asFloat32? : Argument → Option UInt32
  | float32 bits => some bits
  | _ => none

def asString? : Argument → Option String
  | string s => some s
  | _ => none

def asBool? : Argument → Option Bool
  | bool b => some b
  | _ => none

end Argument

end OpenSound
