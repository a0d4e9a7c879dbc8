/-
# Converting to NTP and back, again and again (`src/time/time_sync.cpp`)

A nanosecond is not a whole number of the units of an NTP timestamp, except for every
1953125th: both conversions round down, so a time point that goes there and back comes back
a nanosecond earlier, and again the next time, until it has reached such a nanosecond
(`ntpRoundTrips_exact`).  The other way round a timestamp loses at most five units.
-/
import Mathlib.Data.Int.GCD
import QcDatabase.Time.NtpTime

namespace QcDatabase

/-- A time point that is converted to NTP and back. -/
def ntpRoundTrip (t : TimePoint) : TimePoint :=
  (ntpToPhysicalTimestamp (physicalToNtpTimestamp t).value).value

/-- `2 ^ 32` units are a second, so so many nanoseconds are a whole number of units: `5 ^ 9`. -/
def wholeUnits : ℤ := 1953125

variable {t : ℤ}

/-- The nanoseconds that are a whole number of units. -/
theorem scaled_emod_eq_zero_iff (s : ℤ) :
    s * 2 ^ 32 % 1000000000 = 0 ↔ s % wholeUnits = 0 := by
  have hscaled : s * 2 ^ 32 = 512 * (s * 8388608) := by ring
  have hsecond : (1000000000 : ℤ) = 512 * wholeUnits := rfl
  rw [← Int.dvd_iff_emod_eq_zero, ← Int.dvd_iff_emod_eq_zero, hscaled, hsecond,
    mul_dvd_mul_iff_left (by decide)]
  constructor
  · exact fun h => Int.dvd_of_dvd_mul_left_of_gcd_one h (by decide)
  · exact fun h => h.mul_right _

theorem ediv_of_remainder {s units rest : ℤ} (h : 1000000000 * units + rest = s * 4294967296)
    (hlow : 0 < rest) (hhigh : rest < 1000000000) : units * 1000000000 / 4294967296 = s - 1 := by
  omega

/-- Scaling a fraction of a second up and down again, in whole numbers. -/
theorem scale_back_eq (s : ℤ) :
    s * 2 ^ 32 / 1000000000 * 1000000000 / 2 ^ 32 = s - min 1 (s % wholeUnits) := by
  have hpower : (2 : ℤ) ^ 32 = 4294967296 := rfl
  have hwhole := scaled_emod_eq_zero_iff s
  rw [hpower] at hwhole ⊢
  have hdivision := Int.mul_ediv_add_emod (s * 4294967296) 1000000000
  have hlow := Int.emod_nonneg (s * 4294967296) (show (1000000000 : ℤ) ≠ 0 by decide)
  have hhigh := Int.emod_lt_of_pos (s * 4294967296) (show (0 : ℤ) < 1000000000 by decide)
  have hunits := Int.emod_nonneg s (show wholeUnits ≠ 0 by decide)
  -- the remainder of the first division decides, and it is below the second divisor
  rcases eq_or_ne (s * 4294967296 % 1000000000) 0 with hzero | hne
  · rw [hzero, Int.add_zero, Int.mul_comm] at hdivision
    rw [hwhole.mp hzero, hdivision, Int.mul_ediv_cancel s (by decide), min_eq_right (by decide),
      Int.sub_zero]
  · have hmissing : s % wholeUnits ≠ 0 := hwhole.not.mp hne
    have hone : 1 ≤ s % wholeUnits := lt_of_le_of_ne hunits hmissing.symm
    rw [ediv_of_remainder hdivision (lt_of_le_of_ne hlow hne.symm) hhigh, min_eq_left hone]

theorem nanosOfNtp_ntpOfNanos_eq (nanos : ℤ) :
    nanosOfNtp (ntpOfNanos nanos) = nanos - min 1 (nanos % wholeUnits) := by
  have hback := scale_back_eq (nanos % 1000000000)
  have hfraction : 0 ≤ nanos % 1000000000 * 2 ^ 32 / 1000000000 ∧
      nanos % 1000000000 * 2 ^ 32 / 1000000000 < 2 ^ 32 := by omega
  have hunits : nanos % 1000000000 % wholeUnits = nanos % wholeUnits :=
    Int.emod_emod_of_dvd nanos (by decide)
  rw [nanosOfNtp, ntpOfNanos]
  rw [hunits] at hback
  generalize nanos % 1000000000 * 2 ^ 32 / 1000000000 = fraction at *
  have hseconds : (nanos / 1000000000 * 2 ^ 32 + fraction) / 2 ^ 32 = nanos / 1000000000 := by omega
  have hrest : (nanos / 1000000000 * 2 ^ 32 + fraction) % 2 ^ 32 = fraction := by omega
  rw [hseconds, hrest, hback]
  omega

/-- **One round trip**: a nanosecond is lost unless the units are whole. -/
theorem ntpRoundTrip_eq (h : InNtpEra t) : ntpRoundTrip t = t - min 1 (t % wholeUnits) := by
  have hepoch : (t + secondsTo1970 * nanosPerSecond) % wholeUnits = t % wholeUnits := by
    rw [secondsTo1970, nanosPerSecond, wholeUnits]
    omega
  unfold ntpRoundTrip
  rw [ntpToPhysicalTimestamp_eq, toNat_physicalToNtpTimestamp h, nanosOfNtp_ntpOfNanos_eq, hepoch]
  show _ - _ = _
  ring

theorem emod_sub {lost : ℤ} (hnonneg : 0 ≤ lost) (hle : lost ≤ t % wholeUnits) :
    (t - lost) % wholeUnits = t % wholeUnits - lost := by
  rw [wholeUnits] at *
  omega

/-- What round trips lose stays in the era. -/
theorem InNtpEra.sub (h : InNtpEra t) {lost : ℤ} (hnonneg : 0 ≤ lost) (hle : lost ≤ t % wholeUnits) :
    InNtpEra (t - lost) := by
  obtain ⟨hlow, hhigh⟩ := h
  unfold InNtpEra
  rw [secondsTo1970, nanosPerSecond, wholeUnits] at *
  omega

theorem sub_min_sub_min (t missing : ℤ) (k : ℕ) :
    t - min (k : ℤ) missing - min 1 (missing - min (k : ℤ) missing)
      = t - min ((k + 1 : ℕ) : ℤ) missing := by
  omega

/-- Any number of round trips. -/
theorem iterate_ntpRoundTrip (h : InNtpEra t) (k : ℕ) :
    ntpRoundTrip^[k] t = t - min (k : ℤ) (t % wholeUnits) := by
  have hunits : 0 ≤ t % wholeUnits := Int.emod_nonneg t (by decide)
  induction k with
  | zero =>
      rw [Function.iterate_zero, id, Nat.cast_zero, min_eq_left hunits, Int.sub_zero]
  | succ k ih =>
      have hlost : 0 ≤ min (k : ℤ) (t % wholeUnits) := le_min (Int.natCast_nonneg k) hunits
      have hera := h.sub hlost (min_le_right _ _)
      rw [Function.iterate_succ_apply', ih, ntpRoundTrip_eq hera, emod_sub hlost (min_le_right _ _)]
      exact sub_min_sub_min t _ k

/-! ## The other way round -/

/-- Scaling a fraction of a second down and up again. -/
theorem scale_forth_bounds (f : ℤ) :
    f * 1000000000 / 2 ^ 32 * 2 ^ 32 / 1000000000 ≤ f ∧
      f ≤ f * 1000000000 / 2 ^ 32 * 2 ^ 32 / 1000000000 + 5 := by
  omega

theorem nanosOfNtp_mem {ntp : ℤ} (hnonneg : 0 ≤ ntp) (hlt : ntp < 2 ^ 64) :
    0 ≤ nanosOfNtp ntp ∧ nanosOfNtp ntp < 2 ^ 32 * 1000000000 := by
  rw [nanosOfNtp]
  omega

theorem ntpOfNanos_nanosOfNtp (ntp : ℤ) :
    ntpOfNanos (nanosOfNtp ntp) ≤ ntp ∧ ntp ≤ ntpOfNanos (nanosOfNtp ntp) + 5 := by
  have hbounds := scale_forth_bounds (ntp % 2 ^ 32)
  have hfraction : 0 ≤ ntp % 2 ^ 32 * 1000000000 / 2 ^ 32 ∧
      ntp % 2 ^ 32 * 1000000000 / 2 ^ 32 < 1000000000 := by omega
  rw [nanosOfNtp, ntpOfNanos]
  generalize ntp % 2 ^ 32 * 1000000000 / 2 ^ 32 = nanos at *
  have hseconds : (ntp / 2 ^ 32 * 1000000000 + nanos) / 1000000000 = ntp / 2 ^ 32 := by omega
  have hrest : (ntp / 2 ^ 32 * 1000000000 + nanos) % 1000000000 = nanos := by omega
  rw [hseconds, hrest]
  omega

/-- Every timestamp is one of the era. -/
theorem inNtpEra_ntpToPhysicalTimestamp (ntp : UInt64) :
    InNtpEra (ntpToPhysicalTimestamp ntp).value := by
  have hlt := ntp.toNat_lt
  obtain ⟨hnonneg, hbound⟩ : 0 ≤ nanosOfNtp ntp.toNat ∧ _ := nanosOfNtp_mem (by omega) (by omega)
  rw [ntpToPhysicalTimestamp_eq]
  show _ ≤ _ - _ ∧ _ - _ < _
  rw [secondsTo1970, nanosPerSecond]
  omega

/-- **Repeated conversions**: so many round trips of a time point lose a nanosecond each until
its units are whole, and a timestamp that goes the other way loses at most five units. -/
theorem ntpRoundTrips_exact :
    (∀ t, InNtpEra t → ∀ k : ℕ, ntpRoundTrip^[k] t = t - min (k : ℤ) (t % wholeUnits)) ∧
      ∀ ntp : UInt64,
        (physicalToNtpTimestamp (ntpToPhysicalTimestamp ntp).value).value ≤ ntp ∧
          ntp.toNat
            ≤ (physicalToNtpTimestamp (ntpToPhysicalTimestamp ntp).value).value.toNat + 5 := by
  refine ⟨fun t h k => iterate_ntpRoundTrip h k, fun ntp => ?_⟩
  have hvalue := toNat_physicalToNtpTimestamp (inNtpEra_ntpToPhysicalTimestamp ntp)
  obtain ⟨hle, hge⟩ := ntpOfNanos_nanosOfNtp ntp.toNat
  have hsame : (ntpToPhysicalTimestamp ntp).value + secondsTo1970 * nanosPerSecond
      = nanosOfNtp ntp.toNat := by
    rw [ntpToPhysicalTimestamp_eq]
    show _ - _ + _ = _
    ring
  rw [hsame] at hvalue
  rw [UInt64.le_iff_toNat_le]
  omega

/-- A time point of 2023, which has 409914 nanoseconds too many. -/
theorem ntpRoundTrips_exact_sample :
    ntpRoundTrip^[1000] 1700000000123456789 = 1700000000123455789 ∧
      ntpRoundTrip^[1000000] 1700000000123456789 = 1700000000123046875 := by
  have hera : InNtpEra 1700000000123456789 := by decide
  exact ⟨ntpRoundTrips_exact.1 _ hera 1000, ntpRoundTrips_exact.1 _ hera 1000000⟩

end QcDatabase
