/-!
# Time tags

A time tag is either the mark "immediately" or seconds since 1900 and a sub-second part in nanoseconds. On the
wire it is 64 bits, and the value one is reserved for "immediately".
-/

namespace OpenSound

/-- A time tag. The three fields are independent: a tag that is immediate may hold a time as well. -/
structure TimeTag where
  seconds : UInt32
  fraction : UInt32
  isImmediate : Bool
  deriving DecidableEq, Repr

namespace TimeTag

/-- The seconds from the start of 1900 to the start of 1970. -/
def unixOffset : Nat := 2208988800

def nanosPerSecond : Nat := 1000000000

/-- The tag "immediately". -/
def immediate : TimeTag := ⟨0, 0, true⟩

instance : Inhabited TimeTag := ⟨immediate⟩

/-- The tag of a 64-bit value: seconds in the high half, and one for "immediately". -/
def ofRaw (raw : UInt64) : TimeTag :=
  if raw = 1 then immediate else ⟨(raw >>> 32).toUInt32, raw.toUInt32, false⟩

/-- The 64-bit value of a tag. -/
def toRaw (t : TimeTag) : UInt64 :=
  if t.isImmediate then 1 else t.seconds.toUInt64 <<< 32 ||| t.fraction.toUInt64

/-- A tag that its own 64-bit value gives back: "immediately" without a time, or a time that does not have the
    reserved value. -/
def IsCanonical (t : TimeTag) : Prop :=
  if t.isImmediate then t.seconds = 0 ∧ t.fraction = 0 else ¬(t.seconds = 0 ∧ t.fraction = 1)

instance (t : TimeTag) : Decidable t.IsCanonical := by unfold IsCanonical; infer_instance

/-- The tag of a time given by seconds and nanoseconds since 1970. Nanoseconds of a second and more carry; the
    seconds are counted in 64-bit arithmetic that wraps, and their low half is kept. -/
def ofUnix (seconds : Int64) (nanos : UInt32) : TimeTag where
  seconds := (seconds + Int64.ofNat (nanos.toNat / nanosPerSecond) + Int64.ofNat unixOffset).toUInt64.toUInt32
  fraction := UInt32.ofNat (nanos.toNat % nanosPerSecond)
  isImmediate := false

/-- A number with at least nine digits. -/
def nineDigits (n : Nat) : List Char :=
  let ds := Nat.toDigits 10 n
  List.replicate (9 - ds.length) '0' ++ ds

/-- A tag as text. -/
def display (t : TimeTag) : String :=
  if t.isImmediate then "TimeTag: (immediate)"
  else "TimeTag: " ++ toString t.seconds.toNat ++ "." ++ String.ofList (nineDigits t.fraction.toNat)

end TimeTag

end OpenSound
