import OpenSound.Json.Text
import OpenSound.Packet

/-!
# Packets as JSON

Records are objects with their fields in order, alternatives are objects with one member, and blobs are arrays of
numbers. Reading also takes records as arrays and blobs as text. A value may be nested in at most a given number
of arrays and objects on the way to what is wanted; what is ignored may be nested at will.
-/

namespace OpenSound

/-- How deep arrays and objects may be nested when a text is read. -/
def Json.maxDepth : Nat := 127

/-- Reads a whole text as a value of some type, given how that type is read within a depth. -/
def Json.decode? {α : Type} (read : Nat → Json → Option α) (text : List Char) : Option α :=
  (parse? text).bind (read maxDepth)

/-- The record with these fields. -/
def Json.record (fields : List (String × Json)) : Json :=
  .object (fields.map fun f => (TextUnit.ofString f.1, f.2))

/-- The alternative with this name. -/
def Json.alternative (name : String) (v : Json) : Json := Json.record [(name, v)]

def Json.ofInt (i : Int) : Json := .number (.ofInt i)

def Json.ofString (s : String) : Json := .string (TextUnit.ofString s)

/-- Reads every element of a list, all or nothing. -/
def Json.readAll? {α : Type} (read : Json → Option α) : List Json → Option (List α)
  | [] => some []
  | v :: vs =>
    match read v, Json.readAll? read vs with
    | some a, some as => some (a :: as)
    | _, _ => none

/-- How a floating point number is written in JSON: positionally, with a zero after the point of a whole number,
    if the exponent of its first digit is in a range. -/
structure Json.FloatLayout where
  least : Int
  greatest : Int

namespace Json.FloatLayout

/-- Numbers of 32 bits. -/
def single : FloatLayout := ⟨-6, 12⟩

/-- Numbers of 64 bits. -/
def double : FloatLayout := ⟨-5, 15⟩

/-- A decimal numeral in this layout; outside the range it has one digit before the point, and an exponent. -/
def numeral (l : FloatLayout) (isNegative : Bool) (d : Decimal) : Numeral :=
  let e := d.leadingExponent
  if l.least ≤ e ∧ e ≤ l.greatest then
    match d.positional with
    | (whole, []) => ⟨isNegative, whole, ['0'], none⟩
    | (whole, fraction) => ⟨isNegative, whole, fraction, none⟩
  else ⟨isNegative, d.digitList.take 1, d.digitList.drop 1, some (e < 0, Nat.toDigits 10 e.natAbs)⟩

end Json.FloatLayout

/-- A floating point number in JSON; what is not finite is null. -/
def BinaryFormat.toJson (f : BinaryFormat) (layout : Json.FloatLayout) (bits : Nat) : Json :=
  match f.value bits with
  | .nan _ | .infinite _ => .null
  | .finite isNegative 0 _ => .number ⟨isNegative, ['0'], ['0'], none⟩
  | .finite isNegative m e => .number (layout.numeral isNegative (f.shortest .toEven m e))

namespace TimeTag

def fieldNames : List String := ["seconds", "fraction", "immediate"]

def toJson (t : TimeTag) : Json :=
  .record [("seconds", .ofInt t.seconds.toNat), ("fraction", .ofInt t.fraction.toNat),
    ("immediate", .bool t.isImmediate)]

/-- A 32-bit natural number. -/
def word? (v : Json) : Option UInt32 := (v.int? (.unsigned 32)).map fun i => UInt32.ofNat i.toNat

/-- Reads a time tag; its three fields are taken as they are. -/
def ofJson? : Nat → Json → Option TimeTag
  | 0, _ => none
  | _ + 1, v =>
    match v.fields? fieldNames with
    | some [seconds, fraction, immediate] =>
      match word? seconds, word? fraction, immediate.bool? with
      | some s, some f, some i => some ⟨s, f, i⟩
      | _, _, _ => none
    | _ => none

end TimeTag

namespace Argument

def toJson : Argument → Json
  | nil => .ofString "Nil"
  | int32 i => .alternative "Int32" (.ofInt i.toInt)
  | float32 bits => .alternative "Float32" (BinaryFormat.single.toJson .single bits.toNat)
  | string s => .alternative "String" (.ofString s)
  | blob data => .alternative "Blob" (.array (data.map fun b => .ofInt b.toNat))
  | bool b => .alternative "Bool" (.bool b)
  | int64 i => .alternative "Int64" (.ofInt i.toInt)
  | float64 bits => .alternative "Float64" (BinaryFormat.double.toJson .double bits.toNat)
  | timeTag t => .alternative "TimeTag" t.toJson

def byte? (v : Json) : Option UInt8 := (v.int? (.unsigned 8)).map fun i => UInt8.ofNat i.toNat

/-- Reads a blob from an array of bytes, or from a text by its bytes. -/
def blob? : Nat → Json → Option (List UInt8)
  | _, .string units => some (units.flatMap TextUnit.bytes)
  | _ + 1, .array vs => Json.readAll? byte? vs
  | _, _ => none

def number? : Json → Option Numeral
  | .number n => some n
  | _ => none

/-- Reads the value of an alternative with a name. -/
def ofVariant? (depth : Nat) (name : String) (v : Json) : Option Argument :=
  match name with
  | "Nil" => match v with
    | .null => some nil
    | _ => none
  | "Int32" => (v.int? (.signed 32)).map fun i => int32 (Int32.ofInt i)
  | "Float32" => (number? v).bind fun n => n.single?.map fun bits => float32 (UInt32.ofNat bits)
  | "String" => v.string?.map string
  | "Blob" => (blob? depth v).map blob
  | "Bool" => v.bool?.map bool
  | "Int64" => (v.int? (.signed 64)).map fun i => int64 (Int64.ofInt i)
  | "Float64" => (number? v).bind fun n => n.double?.map fun bits => float64 (UInt64.ofNat bits)
  | "TimeTag" => (TimeTag.ofJson? depth v).map timeTag
  | _ => none

/-- Reads an argument; the one without a value may be its name alone. -/
def ofJson? (depth : Nat) (v : Json) : Option Argument :=
  match v, depth with
  | .string units, _ => if TextUnit.string? units = some "Nil" then some nil else none
  | _, 0 => none
  | v, depth + 1 =>
    match v.variant? with
    | some (name, v) => ofVariant? depth name v
    | none => none

end Argument

namespace Message

def fieldNames : List String := ["address", "arguments"]

def toJson (m : Message) : Json :=
  .record [("address", .ofString m.address), ("arguments", .array (m.arguments.map Argument.toJson))]

def ofJson? : Nat → Json → Option Message
  | depth + 2, v =>
    match v.fields? fieldNames with
    | some [address, .array arguments] =>
      match address.string?, Json.readAll? (Argument.ofJson? depth) arguments with
      | some a, some as => some ⟨a, as⟩
      | _, _ => none
    | _ => none
  | _, _ => none

end Message

namespace Bundle

def fieldNames : List String := ["time_tag", "elements"]

end Bundle

namespace Packet

mutual

def toJson : Packet → Json
  | message m => .alternative "Message" m.toJson
  | bundle t elements =>
    .alternative "Bundle" (.record [("time_tag", t.toJson), ("elements", .array (allToJson elements))])

def allToJson : List Packet → List Json
  | [] => []
  | p :: ps => p.toJson :: allToJson ps

end

end Packet

def Bundle.toJson (b : Bundle) : Json :=
  .record [("time_tag", b.timeTag.toJson), ("elements", .array (Packet.allToJson b.elements))]

/-- Reads a bundle, given how its elements are read two levels further down. -/
def Bundle.ofFields? (depth : Nat) (element : Json → Option Packet) (v : Json) : Option Bundle :=
  match v.fields? fieldNames with
  | some [timeTag, .array elements] =>
    match TimeTag.ofJson? depth timeTag, Json.readAll? element elements with
    | some t, some ps => some ⟨t, ps⟩
    | _, _ => none
  | _ => none

def Packet.ofJson? : Nat → Json → Option Packet
  | 0, _ => none
  | depth + 1, v =>
    match v.variant? with
    | some ("Message", v) => (Message.ofJson? depth v).map .message
    | some ("Bundle", v) =>
      match depth with
      | inner + 2 => (Bundle.ofFields? (inner + 1) (Packet.ofJson? inner) v).map Bundle.toPacket
      | _ => none
    | _ => none

def Bundle.ofJson? : Nat → Json → Option Bundle
  | depth + 2, v => Bundle.ofFields? (depth + 1) (Packet.ofJson? depth) v
  | _, _ => none

end OpenSound
