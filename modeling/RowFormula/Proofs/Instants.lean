/-
# Instants as counts

Outside of leap seconds an instant is one number, the nanoseconds since the start of 1970, and what
is done with instants is done with these numbers.  The supported years are an interval of them.
-/

import RowFormula.Calendar.Instant
import RowFormula.Proofs.CalendarDates

namespace RowFormula.Calendar

variable {n : Int} {i j : Instant}

/-- The seconds since 1970 at which the supported years start, and those at which they are over. -/
def firstSecond : Int := yearStart minYear * 86400

def endSecond : Int := yearStart (maxYear + 1) * 86400

theorem ends_within : -10 ^ 13 ≤ firstSecond ∧ endSecond ≤ 10 ^ 13 := by
  decide

theorem supports_iff : Date.supports (n / 86400) = true ↔ firstSecond ≤ n ∧ n < endSecond := by
  rw [Date.supports, Bool.and_eq_true, decide_eq_true_iff, decide_eq_true_iff, firstSecond,
    endSecond]
  omega

/-- The days between the ends have their years between the first and the last one. -/
theorem year_mem_of_supports (h : Date.supports n = true) :
    minYear ≤ (Date.ofDayNumber n).year ∧ (Date.ofDayNumber n).year ≤ maxYear := by
  rw [Date.supports, Bool.and_eq_true, decide_eq_true_iff, decide_eq_true_iff] at h
  obtain ⟨hfirst, hnext⟩ := yearOfDay_spec n
  rw [(Date.ofDayNumber_spec n).2.2]
  constructor
  · have hlt := yearStart_strictMono.lt_iff_lt.1 (h.1.trans_lt hnext)
    omega
  · have hlt := yearStart_strictMono.lt_iff_lt.1 (hfirst.trans_lt h.2)
    omega

theorem ClockReading.seconds_ofSeconds (seconds : Int) (nanos : Nat) :
    (ClockReading.ofSeconds seconds nanos).seconds = seconds := by
  show (Date.ofDayNumber (seconds / 86400)).dayNumber * 86400 + (seconds % 86400).toNat = seconds
  rw [(Date.ofDayNumber_spec _).2.1]
  omega

/-- The reading of universal time is the instant again. -/
theorem Instant.toInstant_utc (i : Instant) : i.utc.toInstant = i := by
  rw [ClockReading.toInstant, Instant.utc, ClockReading.seconds_ofSeconds]
  rfl

namespace Instant

theorem isSupported_iff : i.isSupported = true ↔ firstSecond ≤ i.seconds ∧ i.seconds < endSecond :=
  supports_iff

/-- A date as values have it, outside of leap seconds. -/
structure IsPlain (i : Instant) : Prop where
  isSupported : i.isSupported = true
  nanos_lt : i.nanos < billion

/-- Nanoseconds since the start of 1970. -/
def count (i : Instant) : Int :=
  i.seconds * billion + i.nanos

/-- Outside of leap seconds the count says which instant it is. -/
theorem count_inj (hi : i.nanos < billion) (hj : j.nanos < billion) (h : i.count = j.count) :
    i = j := by
  unfold count billion at *
  obtain ⟨s, nanos⟩ := i
  obtain ⟨s', nanos'⟩ := j
  rw [Instant.mk.injEq]
  dsimp only at *
  omega

/-- Carrying leaves less than a second of nanoseconds and keeps the count. -/
theorem normalize_spec (seconds nanos wholeSeconds : Int) :
    (addNanos?.normalize seconds nanos wholeSeconds).nanos < billion ∧
      (addNanos?.normalize seconds nanos wholeSeconds).count =
        (seconds + wholeSeconds) * billion + nanos := by
  unfold addNanos?.normalize count billion
  dsimp only
  omega

/-- Outside of leap seconds, adding nanoseconds adds to the count. -/
theorem addNanos?_eq_some_iff (hi : i.nanos < billion) :
    i.addNanos? n = some j ↔
      j.isSupported = true ∧ j.nanos < billion ∧ j.count = i.count + n := by
  have hmoved : i.addNanos? n =
      let moved := addNanos?.normalize i.seconds (i.nanos + n.tmod billion) (n.tdiv billion)
      if moved.isSupported then some moved else none := by
    simp only [addNanos?, if_pos hi]
  obtain ⟨hnanos, hcount⟩ := normalize_spec i.seconds (i.nanos + n.tmod billion) (n.tdiv billion)
  have hsplit : n.tdiv billion * billion + n.tmod billion = n := Int.tdiv_mul_add_tmod n billion
  have hsum : (addNanos?.normalize i.seconds (i.nanos + n.tmod billion) (n.tdiv billion)).count =
      i.count + n := by
    rw [hcount, count]
    linarith
  rw [hmoved, Option.ite_none_right_eq_some, Option.some.injEq]
  constructor
  · rintro ⟨hsupported, rfl⟩
    exact ⟨hsupported, hnanos, hsum⟩
  · rintro ⟨hsupported, hj, hjcount⟩
    obtain rfl := count_inj hnanos hj (hsum.trans hjcount.symm)
    exact ⟨hsupported, rfl⟩

/-- There are not so many nanoseconds between two supported instants. -/
theorem natAbs_le_of_addNanos? (hi : i.IsPlain) (h : i.addNanos? n = some j) :
    n.natAbs ≤ 10 ^ 23 := by
  obtain ⟨hsupported, hj, hcount⟩ := (addNanos?_eq_some_iff hi.nanos_lt).1 h
  have hfrom := isSupported_iff.1 hi.isSupported
  have hto := isSupported_iff.1 hsupported
  have hnanos := hi.nanos_lt
  have hends := ends_within
  unfold count billion at *
  omega

/-- Outside of leap seconds, the time between instants is the difference of their counts. -/
theorem elapsedNanos_eq (hi : i.nanos < billion) (hj : j.nanos < billion) :
    elapsedNanos i j = j.count - i.count := by
  unfold billion at hi hj
  simp only [elapsedNanos, billion, not_le.2 hi, not_le.2 hj, and_false, if_false, count]
  omega

end Instant

end RowFormula.Calendar
