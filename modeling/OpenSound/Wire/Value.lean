import OpenSound.Packet
import OpenSound.Wire.Bytes

/-!
# Strings, blobs, time tags and arguments on the wire

A string is its bytes, a zero, and zeros up to a multiple of four; a blob is its length, its bytes, and filling up
to a multiple of four that nobody looks at; numbers are big-endian.
-/

namespace OpenSound.Wire

/-- A string is written if its length fits 32 bits with its final zero and it holds no zero of its own. -/
def writeString (s : String) : Writer :=
  let bytes := Utf8.encode s
  if UInt32.size ≤ bytes.length + 1 then .fail (.payloadTooLarge bytes.length)
  else if bytes.contains 0 then .fail (.data (.nulInString s))
  else .put (bytes ++ 0 :: padding (bytes.length + 1))

/-- Reads a string. Nothing is taken where it fails. -/
def readString : Reader DataFault String := fun bytes =>
  let text := bytes.takeWhile (· ≠ 0)
  let total := paddedLength (text.length + 1)
  if (bytes.drop text.length).isEmpty then (.error .unterminated, bytes)
  else if (bytes.take total).length < total then (.error (.paddingTruncated total bytes.length), bytes)
  else if ((bytes.take total).drop (text.length + 1)).any (· ≠ 0) then (.error .dirtyPadding, bytes)
  else
    match Utf8.decode text with
    | .error fault => (.error (.notUtf8 fault), bytes)
    | .ok s => (.ok s, bytes.drop total)

/-- The greatest length of a blob. -/
def maxBlob : Nat := 0x7fffffff

/-- A blob is written if its length fits 31 bits. -/
def writeBlob (data : List UInt8) : Writer :=
  if maxBlob < data.length then .fail (.payloadTooLarge data.length)
  else .put (bigEndian 4 data.length ++ data ++ padding data.length)

/-- Reads a blob. The length stays taken where the data after it is too short. -/
def readBlob : Reader DataFault (List UInt8) := fun bytes =>
  match readNumber 4 bytes with
  | (.error fault, rest) => (.error fault, rest)
  | (.ok length, rest) =>
    if rest.length < paddedLength length then (.error (.blobTruncated length rest.length), rest)
    else (.ok (rest.take length), rest.drop (paddedLength length))

def writeTimeTag (t : TimeTag) : Writer := .put (bigEndian 8 t.toRaw.toNat)

def readTimeTag : Reader DataFault TimeTag := fun bytes =>
  match readNumber 8 bytes with
  | (.error fault, rest) => (.error fault, rest)
  | (.ok raw, rest) => (.ok (.ofRaw (UInt64.ofNat raw)), rest)

/-- Writes the payload of an argument, which is nothing for the types that a tag says all about. -/
def writeArgument : Argument → Writer
  | .nil => .put []
  | .bool _ => .put []
  | .int32 i => .put (bigEndian 4 i.toUInt32.toNat)
  | .float32 bits => .put (bigEndian 4 bits.toNat)
  | .string s => writeString s
  | .blob data => writeBlob data
  | .int64 i => .put (bigEndian 8 i.toUInt64.toNat)
  | .float64 bits => .put (bigEndian 8 bits.toNat)
  | .timeTag t => writeTimeTag t

/-- The outcome of reading a payload as an argument. -/
def asArgument {α : Type} (build : α → Argument) (r : Except DataFault α × List UInt8) :
    Except ArgumentFault Argument × List UInt8 :=
  match r with
  | (.ok a, rest) => (.ok (build a), rest)
  | (.error fault, rest) => (.error (.data fault), rest)

/-- Reads the payload that a tag calls for. -/
def readArgument (tag : Char) : Reader ArgumentFault Argument := fun bytes =>
  match tag with
  | 'N' => (.ok .nil, bytes)
  | 'T' => (.ok (.bool true), bytes)
  | 'F' => (.ok (.bool false), bytes)
  | 'i' => asArgument (fun n => .int32 (UInt32.ofNat n).toInt32) (readNumber 4 bytes)
  | 'f' => asArgument (fun n => .float32 (UInt32.ofNat n)) (readNumber 4 bytes)
  | 's' => asArgument .string (readString bytes)
  | 'b' => asArgument .blob (readBlob bytes)
  | 'h' => asArgument (fun n => .int64 (UInt64.ofNat n).toInt64) (readNumber 8 bytes)
  | 'd' => asArgument (fun n => .float64 (UInt64.ofNat n)) (readNumber 8 bytes)
  | 't' => asArgument .timeTag (readTimeTag bytes)
  | _ => (.error .unsupportedTag, bytes)

/-- Reads the arguments for some tags, the first of which has a given index. The first failure ends it. -/
def readTagged (index : Nat) : List Char → Reader Error (List Argument)
  | [], bytes => (.ok [], bytes)
  | tag :: tags, bytes =>
    match readArgument tag bytes with
    | (.error fault, rest) => (.error (.argument index tag fault), rest)
    | (.ok a, rest) =>
      match readTagged (index + 1) tags rest with
      | (.error e, rest) => (.error e, rest)
      | (.ok as, rest) => (.ok (a :: as), rest)

/-- Reads the arguments that a message's tags call for. -/
def readArguments (tags : String) : Reader Error (List Argument) := fun bytes =>
  match tags.toList with
  | ',' :: tags => readTagged 0 tags bytes
  | _ => (.error (.tagsWithoutComma tags), bytes)

end OpenSound.Wire
