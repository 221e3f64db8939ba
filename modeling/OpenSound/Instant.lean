import OpenSound.TimeTag

/-!
# Wall-clock times

A time of the system clock is a whole number of seconds from the start of 1970, rounded down, and nanoseconds
above it. It is shown as a distance after or before 1970. Main definitions: the time tag of a time, and the time
of a tag.
-/

namespace OpenSound

/-- A length of time: seconds, and nanoseconds of less than a second. -/
structure Duration where
  seconds : UInt64
  nanos : Fin 1000000000
  deriving DecidableEq, Repr

namespace Duration

/-- A length of time from seconds and any number of nanoseconds, if its seconds fit 64 bits. -/
def ofParts? (seconds : UInt64) (nanos : UInt32) : Option Duration :=
  let total := seconds.toNat + nanos.toNat / TimeTag.nanosPerSecond
  if total < UInt64.size then
    some ⟨UInt64.ofNat total, ⟨nanos.toNat % TimeTag.nanosPerSecond, Nat.mod_lt _ (by decide)⟩⟩
  else none

/-- A length of whole seconds. -/
def ofSeconds (seconds : UInt64) : Duration := ⟨seconds, 0⟩

/-- A length given in nanoseconds, a second and more of which carry. -/
def ofNanos (nanos : UInt64) : Duration :=
  ⟨UInt64.ofNat (nanos.toNat / TimeTag.nanosPerSecond),
    ⟨nanos.toNat % TimeTag.nanosPerSecond, Nat.mod_lt _ (by decide)⟩⟩

/-- The whole length in nanoseconds. -/
def toNanos (d : Duration) : Nat := d.seconds.toNat * TimeTag.nanosPerSecond + d.nanos

end Duration

/-- A time of the system clock: seconds since 1970 rounded down, and nanoseconds above them. -/
structure Instant where
  seconds : Int64
  nanos : Fin 1000000000
  deriving DecidableEq, Repr

/-- How far a time is from the start of 1970, and on which side. -/
inductive Distance where
  | after (d : Duration)
  | before (d : Duration)
  deriving DecidableEq, Repr

namespace Instant

/-- The nanoseconds since the start of 1970. -/
def toNanos (t : Instant) : Int := t.seconds.toInt * TimeTag.nanosPerSecond + t.nanos

/-- The 64-bit integer with a value, if there is one. -/
def int64? (n : Int) : Option Int64 :=
  if Int64.minValue.toInt ≤ n ∧ n ≤ Int64.maxValue.toInt then some (Int64.ofInt n) else none

/-- The time with a number of nanoseconds since the start of 1970, if the clock reaches it. -/
def ofNanos? (n : Int) : Option Instant :=
  (int64? (n.fdiv TimeTag.nanosPerSecond)).map fun seconds =>
    ⟨seconds, ⟨(n.fmod TimeTag.nanosPerSecond).toNat % TimeTag.nanosPerSecond, Nat.mod_lt _ (by decide)⟩⟩

/-- The start of 1970. -/
def epoch : Instant := ⟨0, 0⟩

/-- The time that lies a length after another one, if the clock reaches it. -/
def add? (t : Instant) (d : Duration) : Option Instant := ofNanos? (t.toNanos + d.toNanos)

/-- The time that lies a length before another one, if the clock reaches it. -/
def sub? (t : Instant) (d : Duration) : Option Instant := ofNanos? (t.toNanos - d.toNanos)

/-- The time at a distance from the start of 1970, if the clock reaches it. -/
def ofDistance? : Distance → Option Instant
  | .after d => epoch.add? d
  | .before d => epoch.sub? d

/-- The time that lies a number of seconds after the start of 1970, or before it if the number is negative. -/
def ofSeconds? (seconds : Int) : Option Instant :=
  if 0 ≤ seconds then epoch.add? (.ofSeconds (UInt64.ofNat seconds.toNat))
  else epoch.sub? (.ofSeconds (UInt64.ofNat seconds.natAbs))

/-- How far a time is from the start of 1970; the start itself lies zero after. -/
def distance (t : Instant) : Distance :=
  if 0 ≤ t.seconds.toInt then .after ⟨UInt64.ofNat t.seconds.toInt.toNat, t.nanos⟩
  else if t.nanos.val = 0 then .before ⟨UInt64.ofNat (-t.seconds.toInt).toNat, 0⟩
  else .before ⟨UInt64.ofNat (-t.seconds.toInt - 1).toNat,
    ⟨(TimeTag.nanosPerSecond - t.nanos) % TimeTag.nanosPerSecond, Nat.mod_lt _ (by decide)⟩⟩

end Instant

namespace TimeTag

/-- The tag of a system time, from its distance to 1970. A distance before 1970 is negated, and its nanoseconds
    are complemented with a borrowed second. Nothing comes out where a step leaves the 64-bit integers: there a program
    that is built with overflow checks panics, while a release build wraps around and has a tag nevertheless. -/
def ofInstant (t : Instant) : Option TimeTag :=
  match t.distance with
  | .after d => some (ofUnix d.seconds.toInt64 (UInt32.ofNat d.nanos))
  | .before d => do
    let seconds ← Instant.int64? (-d.seconds.toInt64.toInt)
    if d.nanos.val = 0 then pure (ofUnix seconds 0)
    else pure (ofUnix (← Instant.int64? (seconds.toInt - 1)) (UInt32.ofNat (nanosPerSecond - d.nanos)))

/-- The system time of a tag that is not immediate: its seconds after 1970 or before it, and behind these its fraction,
    which counts in full, also when it is a second or more. -/
def toInstant? (t : TimeTag) : Option Instant :=
  if t.isImmediate then none
  else (Instant.ofSeconds? (t.seconds.toNat - unixOffset)).bind (·.add? (.ofNanos t.fraction.toUInt64))

end TimeTag

end OpenSound
