import Mathlib.Tactic.SplitIfs
import OpenSound.TimeTag

/-!
# Time tags and their 64-bit values

A canonical tag is one that its own value gives back, and every value gives a canonical tag. A tag that is not
canonical has the reserved value; among the tags of Unix times these are the ones a nanosecond behind the start of an
era. Tags that are not immediate are ordered by their values as by their times.
-/

namespace OpenSound.TimeTag

/-- The value of a time holds its seconds above its sub-second part. -/
theorem toRaw_toNat {t : TimeTag} (timed : t.isImmediate = false) :
    t.toRaw.toNat = t.seconds.toNat * 4294967296 + t.fraction.toNat := by
  have low := t.fraction.toNat_lt
  have high := t.seconds.toNat_lt
  have joined := Nat.two_pow_add_eq_or_of_lt (i := 32) low t.seconds.toNat
  simp only [toRaw, timed, Bool.false_eq_true, if_false, UInt64.toNat_or, UInt64.toNat_shiftLeft,
    UInt32.toNat_toUInt64]
  rw [show UInt64.toNat 32 % 64 = 32 from rfl, Nat.shiftLeft_eq, Nat.mod_eq_of_lt (by omega), Nat.mul_comm, ← joined]

/-- A value splits into the seconds and the sub-second part of its tag. -/
theorem raw_toNat (raw : UInt64) :
    raw.toNat = (raw >>> 32).toUInt32.toNat * 4294967296 + raw.toUInt32.toNat := by
  have bound := raw.toNat_lt
  have high : (raw >>> 32).toUInt32.toNat = raw.toNat / 4294967296 % 4294967296 := by
    rw [UInt64.toNat_toUInt32, UInt64.toNat_shiftRight, show UInt64.toNat 32 % 64 = 32 from rfl,
      Nat.shiftRight_eq_div_pow]
  rw [high, UInt64.toNat_toUInt32]
  omega

theorem ofRaw_isCanonical (raw : UInt64) : (ofRaw raw).IsCanonical := by
  unfold ofRaw
  split_ifs with one
  · exact ⟨rfl, rfl⟩
  · rintro ⟨zero, unit⟩
    apply one
    have value := raw_toNat raw
    dsimp only at zero unit
    rw [zero, unit] at value
    exact UInt64.toNat_inj.mp value

/-- The tag of a value gives that value back. -/
theorem toRaw_ofRaw (raw : UInt64) : (ofRaw raw).toRaw = raw := by
  unfold ofRaw
  split_ifs with one
  · exact one.symm
  · apply UInt64.toNat_inj.mp
    rw [toRaw_toNat rfl, ← raw_toNat]

/-- A tag is canonical exactly if its value gives it back. -/
theorem ofRaw_toRaw_iff (t : TimeTag) : ofRaw t.toRaw = t ↔ t.IsCanonical := by
  refine ⟨fun back => back ▸ ofRaw_isCanonical t.toRaw, fun canonical => ?_⟩
  obtain ⟨seconds, fraction, isImmediate⟩ := t
  cases isImmediate with
  | true =>
    obtain ⟨rfl, rfl⟩ := canonical
    rfl
  | false =>
    have value : (TimeTag.mk seconds fraction false).toRaw.toNat = seconds.toNat * 4294967296 + fraction.toNat :=
      toRaw_toNat rfl
    have parts := raw_toNat (TimeTag.mk seconds fraction false).toRaw
    have low := fraction.toNat_lt
    have low' := (TimeTag.mk seconds fraction false).toRaw.toUInt32.toNat_lt
    have timed : (TimeTag.mk seconds fraction false).toRaw ≠ 1 := by
      intro one
      rw [one, show UInt64.toNat 1 = 1 from rfl] at value
      exact canonical ⟨UInt32.toNat_inj.mp (by simp; omega), UInt32.toNat_inj.mp (by simp; omega)⟩
    rw [value] at parts
    rw [ofRaw, if_neg timed, TimeTag.mk.injEq]
    exact ⟨UInt32.toNat_inj.mp (by omega), UInt32.toNat_inj.mp (by omega), rfl⟩

/-- A tag that is not canonical has the reserved value. -/
theorem ofRaw_toRaw_of_not_isCanonical {t : TimeTag} (other : ¬t.IsCanonical) : ofRaw t.toRaw = immediate := by
  suffices reserved : t.toRaw = 1 by rw [reserved, ofRaw, if_pos rfl]
  obtain ⟨seconds, fraction, isImmediate⟩ := t
  cases isImmediate with
  | true => rfl
  | false =>
    obtain ⟨rfl, rfl⟩ : seconds = 0 ∧ fraction = 1 := by simpa [IsCanonical] using other
    rfl

/-- The value of a time puts its seconds first. -/
theorem toRaw_lt_iff {t u : TimeTag} (timed : t.isImmediate = false) (timed' : u.isImmediate = false) :
    t.toRaw < u.toRaw ↔ t.seconds < u.seconds ∨ t.seconds = u.seconds ∧ t.fraction < u.fraction := by
  rw [UInt64.lt_iff_toNat_lt, toRaw_toNat timed, toRaw_toNat timed', UInt32.lt_iff_toNat_lt, UInt32.lt_iff_toNat_lt,
    ← UInt32.toNat_inj]
  have low := t.fraction.toNat_lt
  have low' := u.fraction.toNat_lt
  omega

theorem toNat_toUInt64 (i : Int64) : (i.toUInt64.toNat : Int) = i.toInt % UInt64.size := by
  rw [← UInt64.toNat_toBitVec, ← Int64.toInt_toBitVec, BitVec.toInt_eq_toNat_bmod, Int.bmod_emod]
  exact (Int.emod_eq_of_lt (Int.natCast_nonneg _) (Int.ofNat_lt.mpr i.toUInt64.toNat_lt)).symm

/-- The seconds of a Unix time's tag are the true ones since 1900, reduced to 32 bits: that they are counted in 64 bits
    which wrap does not show, because an era divides what is lost. -/
theorem ofUnix_seconds (seconds : Int64) (nanos : UInt32) :
    ((ofUnix seconds nanos).seconds.toNat : Int) =
      (seconds.toInt + nanos.toNat / nanosPerSecond + unixOffset) % UInt32.size := by
  have carry : (Int64.ofNat (nanos.toNat / nanosPerSecond)).toInt = (nanos.toNat / nanosPerSecond : Nat) := by
    have small := nanos.toNat_lt
    apply Int64.toInt_ofNat_of_lt
    unfold nanosPerSecond
    omega
  have offset : (Int64.ofNat unixOffset).toInt = unixOffset := by decide
  have divides : (UInt32.size : Int) ∣ UInt64.size := by decide
  calc ((ofUnix seconds nanos).seconds.toNat : Int)
      = (seconds + Int64.ofNat (nanos.toNat / nanosPerSecond) + Int64.ofNat unixOffset).toUInt64.toNat %
          UInt32.size := by
        rw [ofUnix, UInt64.toNat_toUInt32]
        rfl
    _ = (seconds + Int64.ofNat (nanos.toNat / nanosPerSecond) + Int64.ofNat unixOffset).toInt % UInt32.size := by
        rw [toNat_toUInt64, Int.emod_emod_of_dvd _ divides]
    _ = (seconds.toInt + nanos.toNat / nanosPerSecond + unixOffset).bmod UInt64.size % UInt64.size % UInt32.size := by
        rw [Int64.toInt_add, Int64.toInt_add, carry, offset, Int.bmod_add_bmod, Int.emod_emod_of_dvd _ divides]
        rfl
    _ = (seconds.toInt + nanos.toNat / nanosPerSecond + unixOffset) % UInt32.size := by
        rw [Int.bmod_emod, Int.emod_emod_of_dvd _ divides]

theorem ofUnix_fraction (seconds : Int64) (nanos : UInt32) :
    (ofUnix seconds nanos).fraction.toNat = nanos.toNat % nanosPerSecond :=
  UInt32.toNat_ofNat_of_lt' (Nat.lt_of_le_of_lt (Nat.mod_le _ _) nanos.toNat_lt)

/-- A tag is the one of a Unix time if its parts are. -/
theorem ofUnix_eq_iff {t : TimeTag} {seconds : Int64} {nanos : UInt32} : ofUnix seconds nanos = t ↔
    t.isImmediate = false ∧ t.fraction.toNat = nanos.toNat % nanosPerSecond ∧
      (t.seconds.toNat : Int) = (seconds.toInt + nanos.toNat / nanosPerSecond + unixOffset) % UInt32.size := by
  rw [← ofUnix_fraction seconds, ← ofUnix_seconds]
  constructor
  · rintro rfl
    exact ⟨rfl, rfl, rfl⟩
  · rintro ⟨timed, fractions, times⟩
    obtain ⟨_, _, _⟩ := t
    obtain rfl : _ = false := timed
    obtain rfl := UInt32.toNat_inj.mp fractions
    obtain rfl := UInt32.toNat_inj.mp (Int.ofNat_inj.mp times)
    rfl

/-- The tag of a Unix time is canonical but for the first nanosecond of an era. -/
theorem ofUnix_isCanonical_iff {seconds : Int64} {nanos : UInt32} : (ofUnix seconds nanos).IsCanonical ↔
    ¬(nanos.toNat % nanosPerSecond = 1 ∧
      (seconds.toInt + nanos.toNat / nanosPerSecond + unixOffset) % UInt32.size = 0) := by
  have timed : (ofUnix seconds nanos).isImmediate = false := rfl
  have start : (ofUnix seconds nanos).seconds = 0 ↔ ((ofUnix seconds nanos).seconds.toNat : Int) = 0 := by
    rw [← UInt32.toNat_inj, ← Int.ofNat_inj]
    rfl
  have first : (ofUnix seconds nanos).fraction = 1 ↔ (ofUnix seconds nanos).fraction.toNat = 1 := by
    rw [← UInt32.toNat_inj]
    rfl
  rw [IsCanonical, if_neg (by simp [timed]), start, first, ofUnix_seconds, ofUnix_fraction, and_comm]

/-- A value gives a tag that has this value. A tag is given back by its value just if it is canonical, and any other is
    taken for immediate; among the tags of Unix times the others are those a nanosecond behind the start of an era. The
    values of times are in the order of seconds and then of nanoseconds. -/
theorem ofRaw_toRaw_unless_reserved :
    (∀ raw, (ofRaw raw).toRaw = raw) ∧
    (∀ t : TimeTag, (ofRaw t.toRaw = t ↔ t.IsCanonical) ∧ (¬t.IsCanonical → ofRaw t.toRaw = immediate)) ∧
    (∀ seconds nanos, ofRaw (ofUnix seconds nanos).toRaw ≠ ofUnix seconds nanos ↔
      nanos.toNat % nanosPerSecond = 1 ∧
        (seconds.toInt + nanos.toNat / nanosPerSecond + unixOffset) % UInt32.size = 0) ∧
    ∀ t u : TimeTag, t.isImmediate = false → u.isImmediate = false →
      (t.toRaw < u.toRaw ↔ t.seconds < u.seconds ∨ t.seconds = u.seconds ∧ t.fraction < u.fraction) := by
  refine ⟨toRaw_ofRaw, fun t => ⟨ofRaw_toRaw_iff t, ofRaw_toRaw_of_not_isCanonical⟩, ?_, ?_⟩
  · intro seconds nanos
    rw [ne_eq, ofRaw_toRaw_iff, ofUnix_isCanonical_iff, Decidable.not_not]
  · intro t u timed timed'
    exact toRaw_lt_iff timed timed'

/-- A nanosecond behind the start of an era, reached by a carry, is taken for immediate, and a later time has a greater
    value than an earlier one with more nanoseconds. -/
theorem ofRaw_toRaw_reserved :
    let t := ofUnix (-2208988801) 1000000001
    ofRaw t.toRaw ≠ t ∧ ofRaw t.toRaw = immediate ∧ (⟨0, 4294967295, false⟩ : TimeTag).toRaw < toRaw ⟨1, 0, false⟩ := by
  intro t
  obtain ⟨-, given, unix, ordered⟩ := ofRaw_toRaw_unless_reserved
  exact ⟨(unix _ _).mpr (by decide), (given t).2 (by decide), (ordered _ _ rfl rfl).mpr (.inl (by decide))⟩

end OpenSound.TimeTag
