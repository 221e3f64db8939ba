import Mathlib.Tactic.SplitIfs
import OpenSound.Instant
import OpenSound.Proofs.TimeTag

/-!
# Wall-clock times and their tags

A system time is tagged with its seconds since 1900, reduced to an era of 2^32 seconds, and its nanoseconds, also before
1970, where the clock gives the distance back. Only the earliest time has no tag. The time of a tag is in the first era,
so every time of that era comes back and the others come back whole eras away. A tag comes back unless its fraction is
a second or more.
-/

namespace OpenSound

open TimeTag (nanosPerSecond unixOffset)

namespace Duration

private theorem toNanos_ofSeconds (seconds : UInt64) :
    (ofSeconds seconds).toNanos = seconds.toNat * nanosPerSecond := by
  simp [toNanos, ofSeconds]

private theorem toNanos_ofNanos (nanos : UInt64) : (ofNanos nanos).toNanos = nanos.toNat := by
  have whole : (UInt64.ofNat (nanos.toNat / nanosPerSecond)).toNat = nanos.toNat / nanosPerSecond :=
    UInt64.toNat_ofNat_of_lt' (Nat.lt_of_le_of_lt (Nat.div_le_self _ _) nanos.toNat_lt)
  rw [toNanos, ofNanos, whole, Nat.mul_comm]
  exact Nat.div_add_mod _ _

end Duration

namespace Instant

/-- The nanoseconds since 1970 determine the seconds, rounded down, and the nanoseconds above them. -/
theorem toNanos_eq_iff {t : Instant} {seconds : Int} {nanos : Nat} :
    t.toNanos = seconds * nanosPerSecond + nanos ↔
      t.seconds.toInt = seconds + nanos / nanosPerSecond ∧ t.nanos.val = nanos % nanosPerSecond := by
  have below := t.nanos.isLt
  unfold toNanos nanosPerSecond
  omega

theorem ext_iff {t u : Instant} : t = u ↔ t.seconds.toInt = u.seconds.toInt ∧ t.nanos.val = u.nanos.val := by
  obtain ⟨_, _⟩ := t
  obtain ⟨_, _⟩ := u
  rw [mk.injEq, Int64.toInt_inj, Fin.ext_iff]

/-- Times are in the order of seconds and then of nanoseconds. -/
theorem toNanos_lt_iff {t u : Instant} : t.toNanos < u.toNanos ↔
    t.seconds.toInt < u.seconds.toInt ∨ t.seconds.toInt = u.seconds.toInt ∧ t.nanos.val < u.nanos.val := by
  have below := t.nanos.isLt
  have below' := u.nanos.isLt
  unfold toNanos nanosPerSecond
  omega

theorem int64?_eq_some_iff {n : Int} {i : Int64} : int64? n = some i ↔ i.toInt = n := by
  unfold int64?
  constructor
  · intro found
    split_ifs at found with inside
    obtain rfl := Option.some.inj found
    exact Int64.toInt_ofInt_of_le inside.1 (Int.lt_add_one_of_le inside.2)
  · rintro rfl
    rw [if_pos ⟨i.minValue_le_toInt, i.toInt_le⟩, Int64.ofInt_toInt]

/-- Nanoseconds are those of a time exactly if the clock reaches it. -/
theorem ofNanos?_eq_some_iff {n : Int} {t : Instant} : ofNanos? n = some t ↔ t.toNanos = n := by
  have quotient : n.fdiv nanosPerSecond = n / nanosPerSecond := Int.fdiv_eq_ediv_of_nonneg n (by decide)
  have remainder : n.fmod nanosPerSecond = n % nanosPerSecond := Int.fmod_eq_emod_of_nonneg n (by decide)
  have below := t.nanos.isLt
  rw [ofNanos?, Option.map_eq_some_iff, quotient]
  constructor
  · rintro ⟨seconds, found, rfl⟩
    rw [int64?_eq_some_iff] at found
    rw [toNanos, found]
    dsimp only
    rw [remainder]
    unfold nanosPerSecond
    omega
  · intro same
    refine ⟨t.seconds, int64?_eq_some_iff.mpr ?_, ext_iff.mpr ⟨rfl, ?_⟩⟩
    · unfold toNanos nanosPerSecond at *
      omega
    · dsimp only
      rw [remainder]
      unfold toNanos nanosPerSecond at *
      omega

/-- The clock reaches the times whose seconds are a 64-bit integer. -/
theorem exists_ofNanos? {seconds : Int} {nanos : Nat} (early : -9223372036854775808 ≤ seconds)
    (late : seconds + nanos / nanosPerSecond < 9223372036854775808) :
    ∃ t, ofNanos? (seconds * nanosPerSecond + nanos) = some t ∧ t.toNanos = seconds * nanosPerSecond + nanos := by
  have value : (Int64.ofInt (seconds + nanos / nanosPerSecond)).toInt = seconds + nanos / nanosPerSecond := by
    apply Int64.toInt_ofInt_of_le
    · exact Int.le_trans early (Int.le_add_of_nonneg_right (Int.natCast_nonneg _))
    · exact late
  have total : toNanos ⟨_, ⟨nanos % nanosPerSecond, Nat.mod_lt _ (by decide)⟩⟩ = seconds * nanosPerSecond + nanos :=
    toNanos_eq_iff.mpr ⟨value, rfl⟩
  exact ⟨_, ofNanos?_eq_some_iff.mpr total, total⟩

private theorem toNanos_epoch : epoch.toNanos = 0 := by decide

/-- Up to an era of seconds are reached from 1970, on either side. -/
theorem exists_ofSeconds? {seconds : Int} (early : -UInt32.size ≤ seconds) (late : seconds ≤ UInt32.size) :
    ∃ t, ofSeconds? seconds = some t ∧ t.toNanos = seconds * nanosPerSecond := by
  unfold UInt32.size at early late
  obtain ⟨t, reached, total⟩ := @exists_ofNanos? seconds 0 (by omega) (by unfold nanosPerSecond; omega)
  rw [Int.natCast_zero, Int.add_zero] at reached total
  refine ⟨t, ?_, total⟩
  have small : seconds.natAbs < UInt64.size := by
    unfold UInt64.size
    omega
  unfold ofSeconds?
  split_ifs with later
  · have size : ((UInt64.ofNat seconds.toNat).toNat : Int) = seconds := by
      rw [UInt64.toNat_ofNat_of_lt' (by omega)]
      omega
    rw [add?, toNanos_epoch, Duration.toNanos_ofSeconds, Int.natCast_mul, size, Int.zero_add, reached]
  · have size : -((UInt64.ofNat seconds.natAbs).toNat : Int) = seconds := by
      rw [UInt64.toNat_ofNat_of_lt' small]
      omega
    rw [sub?, toNanos_epoch, Duration.toNanos_ofSeconds, Int.natCast_mul, Int.zero_sub, ← Int.neg_mul, size, reached]

end Instant

/-- A tag that is not immediate has a time: its seconds less those up to 1970, and its fraction, of which whole seconds
    carry. -/
theorem TimeTag.exists_toInstant? {t : TimeTag} (timed : t.isImmediate = false) : ∃ T, t.toInstant? = some T ∧
    T.seconds.toInt = t.seconds.toNat - unixOffset + t.fraction.toNat / nanosPerSecond ∧
    T.nanos.val = t.fraction.toNat % nanosPerSecond := by
  have high := t.seconds.toNat_lt
  have low := t.fraction.toNat_lt
  obtain ⟨start, reached, since⟩ : ∃ start, Instant.ofSeconds? (t.seconds.toNat - unixOffset) = some start ∧
      start.toNanos = ((t.seconds.toNat : Int) - unixOffset) * nanosPerSecond := by
    apply Instant.exists_ofSeconds?
    · unfold UInt32.size unixOffset
      omega
    · unfold UInt32.size unixOffset
      omega
  obtain ⟨T, time, total⟩ : ∃ T, Instant.ofNanos? (start.toNanos + t.fraction.toNat) = some T ∧
      T.toNanos = start.toNanos + t.fraction.toNat := by
    rw [since]
    apply Instant.exists_ofNanos?
    · unfold unixOffset
      omega
    · unfold unixOffset nanosPerSecond
      omega
  refine ⟨T, ?_, Instant.toNanos_eq_iff.mp (by rw [total, since])⟩
  rw [toInstant?, if_neg (by simp [timed]), reached, Option.bind_some, Instant.add?, Duration.toNanos_ofNanos,
    UInt32.toNat_toUInt64, time]

namespace Instant

/-- The earliest time of the clock. -/
def earliest : Instant := { epoch with seconds := Int64.minValue }

/-- A number of seconds that is no greater than the greatest 64-bit integer stays as it is. -/
theorem toInt_toInt64 {n : UInt64} (small : n.toNat < 9223372036854775808) : n.toInt64.toInt = n.toNat := by
  rw [← UInt64.ofNat_toNat (x := n), UInt64.toInt64_ofNat', Int64.toInt_ofNat_of_lt small, UInt64.ofNat_toNat]

private theorem distance_of_late {t : Instant} (late : 0 ≤ t.seconds.toInt) :
    ∃ d, t.distance = .after d ∧ d.seconds.toInt64 = t.seconds ∧ d.nanos = t.nanos := by
  have high := t.seconds.toInt_lt
  refine ⟨_, if_pos late, ?_, rfl⟩
  have size : (UInt64.ofNat t.seconds.toInt.toNat).toNat = t.seconds.toInt.toNat :=
    UInt64.toNat_ofNat_of_lt' (by unfold UInt64.size; omega)
  dsimp only
  rw [← Int64.toInt_inj, toInt_toInt64 (by omega), size]
  omega

/-- A time before 1970 is as far from it as its nanoseconds say, the greatest number of seconds included. -/
theorem distance_of_early {t : Instant} (early : t.seconds.toInt < 0) :
    ∃ d, t.distance = .before d ∧ (d.toNanos : Int) = -t.toNanos := by
  have low := t.seconds.le_toInt
  have below := t.nanos.isLt
  have length {n : Int} (some : 0 ≤ n) (small : n ≤ 9223372036854775808) (m : Fin 1000000000) :
      ((Duration.mk (UInt64.ofNat n.toNat) m).toNanos : Int) = n * nanosPerSecond + m.val := by
    unfold Duration.toNanos
    rw [UInt64.toNat_ofNat_of_lt' (by unfold UInt64.size; omega), Int.natCast_add, Int.natCast_mul,
      Int.toNat_of_nonneg some]
  unfold distance
  rw [if_neg (Int.not_le_of_gt early)]
  split_ifs with whole
  · refine ⟨_, rfl, ?_⟩
    rw [length (by omega) (by omega)]
    unfold toNanos nanosPerSecond
    omega
  · refine ⟨_, rfl, ?_⟩
    rw [length (by omega) (by omega)]
    unfold toNanos nanosPerSecond
    dsimp only
    omega

end Instant

private theorem TimeTag.ofInstant_earliest : ofInstant Instant.earliest = none := by decide

/-- A time before 1970 and behind the earliest one is tagged with its seconds and nanoseconds. -/
theorem TimeTag.ofInstant_of_early {T : Instant} (early : T.seconds.toInt < 0) (later : T ≠ Instant.earliest) :
    ofInstant T = some (ofUnix T.seconds (UInt32.ofNat T.nanos)) := by
  have low := T.seconds.le_toInt
  have below := T.nanos.isLt
  obtain ⟨d, apart, length⟩ := Instant.distance_of_early early
  have below' := d.nanos.isLt
  unfold Duration.toNanos Instant.toNanos nanosPerSecond at length
  have small : d.seconds.toNat < 9223372036854775808 := by
    have beyond : ¬(T.seconds.toInt = -9223372036854775808 ∧ T.nanos.val = 0) := by
      intro least
      exact later (Instant.ext_iff.mpr least)
    omega
  have seconds := Instant.toInt_toInt64 small
  simp only [ofInstant, apart]
  by_cases whole : d.nanos.val = 0
  · have negated : Instant.int64? (-d.seconds.toInt64.toInt) = some T.seconds :=
      Instant.int64?_eq_some_iff.mpr (by omega)
    have bare : T.nanos.val = 0 := by omega
    rw [negated]
    simp [whole, bare]
  · -- the borrowed second leaves room: what is negated here is short of the least integer
    obtain ⟨next, value⟩ : ∃ next : Int64, next.toInt = T.seconds.toInt + 1 :=
      ⟨_, Int64.toInt_ofInt_of_le (by omega) (by omega)⟩
    have negated : Instant.int64? (-d.seconds.toInt64.toInt) = some next :=
      Instant.int64?_eq_some_iff.mpr (by omega)
    have borrowed : Instant.int64? (next.toInt - 1) = some T.seconds :=
      Instant.int64?_eq_some_iff.mpr (by omega)
    have complement : nanosPerSecond - d.nanos = T.nanos := by
      unfold nanosPerSecond
      omega
    rw [negated]
    simp [whole, borrowed, complement]

/-- Every time but the earliest one is tagged with its seconds and nanoseconds. -/
theorem TimeTag.ofInstant_eq {T : Instant} (later : T ≠ Instant.earliest) :
    ofInstant T = some (ofUnix T.seconds (UInt32.ofNat T.nanos)) := by
  rcases Int.lt_or_le T.seconds.toInt 0 with early | late
  · exact ofInstant_of_early early later
  · obtain ⟨d, apart, seconds, nanos⟩ := Instant.distance_of_late late
    simp only [ofInstant, apart, seconds, nanos]

private theorem Instant.nanos_lt (T : Instant) : T.nanos.val < nanosPerSecond := T.nanos.isLt

private theorem Instant.toNat_nanos (T : Instant) : (UInt32.ofNat T.nanos).toNat = T.nanos.val :=
  UInt32.toNat_ofNat_of_lt' (Nat.lt_trans T.nanos.isLt (by decide))

/-- What is said of the tag of a system time: there is one, and it is that of the time's seconds, rounded down, and its
    nanoseconds. -/
def Instant.TaggedAsDocumented (T : Instant) : Prop :=
  TimeTag.ofInstant T = some (TimeTag.ofUnix T.seconds (UInt32.ofNat T.nanos))

/-- This is so exactly for the times other than the earliest one. The tag of a Unix time, which is what such a time is
    tagged with, is not immediate; it holds the nanoseconds that do not carry, and the true seconds since 1900 modulo
    2^32. -/
theorem Instant.taggedAsDocumented_iff (T : Instant) :
    (T.TaggedAsDocumented ↔ T ≠ earliest) ∧
    ∀ seconds nanos, (TimeTag.ofUnix seconds nanos).isImmediate = false ∧
      (TimeTag.ofUnix seconds nanos).fraction.toNat = nanos.toNat % nanosPerSecond ∧
      ((TimeTag.ofUnix seconds nanos).seconds.toNat : Int) =
        (seconds.toInt + nanos.toNat / nanosPerSecond + unixOffset) % UInt32.size := by
  refine ⟨⟨?_, TimeTag.ofInstant_eq⟩, fun seconds nanos => TimeTag.ofUnix_eq_iff.mp rfl⟩
  rintro tagged rfl
  rw [TaggedAsDocumented, TimeTag.ofInstant_earliest] at tagged
  cases tagged

/-- The distance of the earliest time has no negative, so that this time has no tag. -/
theorem Instant.not_taggedAsDocumented_earliest :
    ¬TaggedAsDocumented ⟨Int64.minValue, 0⟩ ∧ TimeTag.ofInstant ⟨Int64.minValue, 0⟩ = none := by
  have none : TimeTag.ofInstant ⟨Int64.minValue, 0⟩ = none := TimeTag.ofInstant_earliest
  refine ⟨fun tagged => ?_, none⟩
  rw [TaggedAsDocumented, none] at tagged
  cases tagged

namespace Instant

/-- A time of the era of the tags: from 1900 up to 2^32 seconds later. -/
def IsInEra (T : Instant) : Prop :=
  -(unixOffset : Int) ≤ T.seconds.toInt ∧ T.seconds.toInt < UInt32.size - unixOffset

instance (T : Instant) : Decidable T.IsInEra := inferInstanceAs (Decidable (_ ∧ _))

/-- The tag of a time's seconds and nanoseconds counts the seconds in their era, and keeps the nanoseconds. -/
theorem seconds_ofUnix (T : Instant) : ((TimeTag.ofUnix T.seconds (UInt32.ofNat T.nanos)).seconds.toNat : Int) =
    (T.seconds.toInt + unixOffset) % UInt32.size := by
  have whole : T.nanos.val / nanosPerSecond = 0 := Nat.div_eq_of_lt T.nanos_lt
  rw [TimeTag.ofUnix_seconds, toNat_nanos, ← Int.natCast_ediv, whole, Int.natCast_zero, Int.add_zero]

private theorem fraction_ofUnix (T : Instant) :
    (TimeTag.ofUnix T.seconds (UInt32.ofNat T.nanos)).fraction.toNat = T.nanos.val := by
  rw [TimeTag.ofUnix_fraction, toNat_nanos, Nat.mod_eq_of_lt T.nanos_lt]

/-- The time of a time's tag is in the era, with the same nanoseconds and whole eras away. -/
theorem exists_comesBack {T : Instant} (later : T ≠ earliest) : ∃ U : Instant,
    (TimeTag.ofInstant T).bind TimeTag.toInstant? = some U ∧ U.IsInEra ∧ U.nanos.val = T.nanos.val ∧
      ∃ eras : Int, U.seconds.toInt = T.seconds.toInt + eras * UInt32.size := by
  obtain ⟨U, time, seconds, nanos⟩ := TimeTag.exists_toInstant? (t := .ofUnix T.seconds (UInt32.ofNat T.nanos)) rfl
  have below : T.nanos.val / nanosPerSecond = 0 := Nat.div_eq_of_lt T.nanos_lt
  rw [seconds_ofUnix, fraction_ofUnix, ← Int.natCast_ediv, below] at seconds
  rw [fraction_ofUnix, Nat.mod_eq_of_lt T.nanos_lt] at nanos
  refine ⟨U, ?_, ?_, nanos, -((T.seconds.toInt + unixOffset) / UInt32.size), ?_⟩
  · rw [TimeTag.ofInstant_eq later, Option.bind_some, time]
  · unfold IsInEra UInt32.size at *
    omega
  · have parts := Int.emod_add_mul_ediv (T.seconds.toInt + unixOffset) UInt32.size
    unfold UInt32.size at *
    omega

private theorem IsInEra.ne_earliest {T : Instant} (within : T.IsInEra) : T ≠ earliest := by
  rintro rfl
  revert within
  decide

/-- A time of the era comes back as itself. -/
theorem IsInEra.comesBack {T : Instant} (within : T.IsInEra) :
    (TimeTag.ofInstant T).bind TimeTag.toInstant? = some T := by
  obtain ⟨U, back, within', nanos, eras, seconds⟩ := exists_comesBack within.ne_earliest
  obtain rfl : U = T := by
    refine ext_iff.mpr ⟨?_, nanos⟩
    unfold IsInEra UInt32.size at *
    omega
  exact back

/-- Later times of the era have tags of greater values. -/
theorem IsInEra.toRaw_lt {T U : Instant} (within : T.IsInEra) (within' : U.IsInEra) (before : T.toNanos < U.toNanos) :
    ∃ t u, TimeTag.ofInstant T = some t ∧ TimeTag.ofInstant U = some u ∧ t.toRaw < u.toRaw := by
  refine ⟨_, _, TimeTag.ofInstant_eq within.ne_earliest, TimeTag.ofInstant_eq within'.ne_earliest, ?_⟩
  have seconds := seconds_ofUnix T
  have seconds' := seconds_ofUnix U
  rw [TimeTag.toRaw_lt_iff rfl rfl, UInt32.lt_iff_toNat_lt, UInt32.lt_iff_toNat_lt, ← UInt32.toNat_inj,
    fraction_ofUnix, fraction_ofUnix]
  rw [toNanos_lt_iff] at before
  unfold IsInEra UInt32.size at *
  omega

end Instant

namespace TimeTag

/-- The Unix seconds of a tag. -/
theorem toInt_ofInt_seconds (t : TimeTag) :
    (Int64.ofInt (t.seconds.toNat - unixOffset)).toInt = t.seconds.toNat - unixOffset := by
  have high := t.seconds.toNat_lt
  apply Int64.toInt_ofInt_of_le
  · unfold unixOffset
    omega
  · unfold unixOffset
    omega

/-- The tag of a tag's time is the one of its Unix seconds and its fraction. -/
theorem toInstant?_bind_ofInstant {t : TimeTag} (timed : t.isImmediate = false) :
    t.toInstant?.bind ofInstant = some (ofUnix (Int64.ofInt (t.seconds.toNat - unixOffset)) t.fraction) := by
  obtain ⟨T, time, seconds, nanos⟩ := exists_toInstant? timed
  have later : T ≠ Instant.earliest := by
    rintro rfl
    have least : Instant.earliest.seconds.toInt = -9223372036854775808 := by decide
    unfold unixOffset nanosPerSecond at seconds
    omega
  rw [time, Option.bind_some, ofInstant_eq later, Option.some.injEq, eq_comm, ofUnix_eq_iff, Instant.fraction_ofUnix,
    Instant.seconds_ofUnix, toInt_ofInt_seconds, seconds]
  exact ⟨rfl, nanos, rfl⟩

/-- A tag is that of its Unix seconds and its fraction exactly if nothing carries. -/
theorem ofUnix_self_iff {t : TimeTag} (timed : t.isImmediate = false) :
    ofUnix (Int64.ofInt (t.seconds.toNat - unixOffset)) t.fraction = t ↔ t.fraction.toNat < nanosPerSecond := by
  have high := t.seconds.toNat_lt
  rw [ofUnix_eq_iff, toInt_ofInt_seconds]
  constructor
  · rintro ⟨-, fraction, -⟩
    rw [fraction]
    exact Nat.mod_lt _ (by decide)
  · intro small
    have whole : t.fraction.toNat / nanosPerSecond = 0 := Nat.div_eq_of_lt small
    refine ⟨timed, (Nat.mod_eq_of_lt small).symm, ?_⟩
    rw [← Int.natCast_ediv, whole]
    unfold UInt32.size
    omega

end TimeTag

/-- What is said of the way from a time to its tag and back: inside the era it ends where it began, and outside at a
    time that is whole eras of seconds away. Inside the era tags have values in the order of their times. -/
structure Instant.ComesBackAsDocumented (T : Instant) : Prop where
  inside : T.IsInEra → (TimeTag.ofInstant T).bind TimeTag.toInstant? = some T
  ordered : T.IsInEra → ∀ U : Instant, U.IsInEra → T.toNanos < U.toNanos →
    ∃ t u, TimeTag.ofInstant T = some t ∧ TimeTag.ofInstant U = some u ∧ t.toRaw < u.toRaw
  outside : ¬T.IsInEra → ∃ U eras, (TimeTag.ofInstant T).bind TimeTag.toInstant? = some U ∧ eras ≠ 0 ∧
    U.toNanos = T.toNanos + eras * (UInt32.size * nanosPerSecond)

/-- This is so exactly for the times other than the earliest one. A tag that is not immediate has a time, and the tag
    of that time is the one of its Unix seconds and its fraction; this is the tag itself just if the fraction is less
    than a second. -/
theorem Instant.comesBackAsDocumented_iff (T : Instant) :
    (T.ComesBackAsDocumented ↔ T ≠ earliest) ∧
    ∀ t : TimeTag, t.isImmediate = false →
      t.toInstant?.bind TimeTag.ofInstant =
        some (.ofUnix (Int64.ofInt (t.seconds.toNat - unixOffset)) t.fraction) ∧
      (TimeTag.ofUnix (Int64.ofInt (t.seconds.toNat - unixOffset)) t.fraction = t ↔
        t.fraction.toNat < nanosPerSecond) := by
  refine ⟨⟨?_, fun later => ⟨IsInEra.comesBack, fun within U => within.toRaw_lt, fun away => ?_⟩⟩, fun t timed =>
    ⟨TimeTag.toInstant?_bind_ofInstant timed, TimeTag.ofUnix_self_iff timed⟩⟩
  · rintro documented rfl
    obtain ⟨U, eras, back, -⟩ := documented.outside (by decide)
    rw [TimeTag.ofInstant_earliest] at back
    cases back
  · obtain ⟨U, back, within, nanos, eras, seconds⟩ := exists_comesBack later
    refine ⟨U, eras, back, ?_, ?_⟩
    · rintro rfl
      rw [Int.zero_mul, Int.add_zero] at seconds
      exact away (by rwa [IsInEra, ← seconds])
    unfold toNanos
    rw [seconds, nanos, Int.add_mul, Int.mul_assoc, Int.add_right_comm]

/-- The earliest time is outside the era and has no tag to come back from. -/
theorem Instant.not_comesBackAsDocumented_earliest :
    ¬ComesBackAsDocumented ⟨Int64.minValue, 0⟩ ∧ ¬IsInEra ⟨Int64.minValue, 0⟩ ∧
      (TimeTag.ofInstant ⟨Int64.minValue, 0⟩).bind TimeTag.toInstant? = none := by
  have none : (TimeTag.ofInstant ⟨Int64.minValue, 0⟩).bind TimeTag.toInstant? = none := by
    rw [show (⟨Int64.minValue, 0⟩ : Instant) = earliest from rfl, TimeTag.ofInstant_earliest, Option.bind_none]
  refine ⟨fun documented => ?_, by decide, none⟩
  obtain ⟨U, eras, back, -⟩ := documented.outside (by decide)
  rw [none] at back
  cases back

/-- The last nanosecond before 1970 and the one behind it, the nanosecond behind the earliest time, and a tag whose
    fraction carries over the end of the era. -/
theorem Instant.comesBackAsDocumented_seams :
    let early : Instant := ⟨-1, 999999999⟩
    let carrying : TimeTag := ⟨4294967295, 4294967295, false⟩
    (TimeTag.ofInstant early).bind TimeTag.toInstant? = some early ∧
      (∃ t u, TimeTag.ofInstant early = some t ∧ TimeTag.ofInstant epoch = some u ∧ t.toRaw < u.toRaw) ∧
      ComesBackAsDocumented ⟨Int64.minValue, 1⟩ ∧
      carrying.toInstant?.bind TimeTag.ofInstant = some ⟨3, 294967295, false⟩ := by
  intro early carrying
  obtain ⟨documented, tags⟩ := comesBackAsDocumented_iff early
  have comesBack := documented.mpr (by decide)
  have wrapped : TimeTag.ofUnix (Int64.ofInt (carrying.seconds.toNat - unixOffset)) carrying.fraction =
      ⟨3, 294967295, false⟩ := by decide
  exact ⟨comesBack.inside (by decide), comesBack.ordered (by decide) epoch (by decide) (by decide),
    (comesBackAsDocumented_iff _).1.mpr (by decide), wrapped ▸ (tags carrying rfl).1⟩

end OpenSound
