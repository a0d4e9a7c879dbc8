/-
# NTP timestamps (`src/time/time_sync.cpp`)

`time_utils::physical_to_ntp_timestamp` and `ntp_to_physical_timestamp` convert between
the clock and the timestamps of NTP: the seconds since 1900 in the upper half of 64 bits,
and below them the fraction of a second in units of `2 ^ (-32)`.

In the first era of these timestamps nothing overflows, except that the seconds since 1970
are unsigned for a while, and each conversion is one formula (`physicalToNtpTimestamp_eq`,
`ntpToPhysicalTimestamp_eq`).  Both round down, so that a nanosecond may be lost on the
way there and back (`scale_back_bounds`).
-/
import Mathlib.Tactic.Ring
import QcDatabase.Common.Types
import QcDatabase.Lib.MachineIntegers

namespace QcDatabase

/-- The seconds from 1900 to 1970. -/
def secondsTo1970 : ℤ := 2208988800

open IntType

/-- `time_utils::physical_to_ntp_timestamp`. -/
def physicalToNtpTimestamp (timestamp : TimePoint) : Checked UInt64 := do
  let unixEpoch : TimePoint := 0
  let difference ← int64.store (secondsTo1970 * nanosPerSecond)
  let ntpEpoch ← int64.store (unixEpoch - difference)
  let durationSinceNtpEpoch ← int64.store (timestamp - ntpEpoch)
  let seconds := durationSinceNtpEpoch.tdiv nanosPerSecond
  let wholeSeconds ← int64.store (seconds * nanosPerSecond)
  let fraction ← int64.store (durationSinceNtpEpoch - wholeSeconds)
  let ntpSeconds ← uint64.store seconds
  let count ← uint64.store fraction
  let scaled ← uint64.store (count * 2 ^ 32)
  let ntpFraction := scaled / 1000000000
  let shifted ← uint64.store (ntpSeconds * 2 ^ 32)
  pure (UInt64.ofNat (shifted.toNat ||| ntpFraction.toNat))

/-- `time_utils::ntp_to_physical_timestamp`; the seconds since 1970 are meant to wrap
around, and become negative again as a duration. -/
def ntpToPhysicalTimestamp (ntpTimestamp : UInt64) : Checked TimePoint := do
  let seconds : UInt32 := ((ntpTimestamp >>> 32) &&& 0xFFFFFFFF).toUInt32
  let fraction : UInt32 := (ntpTimestamp &&& 0xFFFFFFFF).toUInt32
  let unixSeconds ← uint64.convert (seconds.toNat - secondsTo1970)
  let product ← uint64.store (fraction.toNat * 1000000000)
  let nanoseconds := product / 2 ^ 32
  let unixEpoch : TimePoint := 0
  let wholeSeconds ← int64.convert unixSeconds
  let sinceEpoch ← int64.store (wholeSeconds * nanosPerSecond)
  let sum ← int64.store (unixEpoch + sinceEpoch)
  let rest ← int64.store nanoseconds
  int64.store (sum + rest)

/-- The first era, from 1900 to 2036 February 7, 06:28:16. -/
def InNtpEra (t : ℤ) : Prop :=
  -secondsTo1970 * nanosPerSecond ≤ t ∧ t < (2 ^ 32 - secondsTo1970) * nanosPerSecond

instance (t : ℤ) : Decidable (InNtpEra t) := inferInstanceAs (Decidable (_ ∧ _))

/-! ## The conversions without overflow -/

/-- The timestamp of an instant given in nanoseconds since 1900. -/
def ntpOfNanos (nanos : ℤ) : ℤ :=
  nanos / 1000000000 * 2 ^ 32 + nanos % 1000000000 * 2 ^ 32 / 1000000000

/-- The nanoseconds since 1900 of a timestamp. -/
def nanosOfNtp (ntp : ℤ) : ℤ := ntp / 2 ^ 32 * 1000000000 + ntp % 2 ^ 32 * 1000000000 / 2 ^ 32

section

variable {t nanos : ℤ}

theorem ntpOfNanos_mem (hnonneg : 0 ≤ nanos) (hlt : nanos < 2 ^ 32 * 1000000000) :
    0 ≤ ntpOfNanos nanos ∧ ntpOfNanos nanos < 2 ^ 64 := by
  rw [ntpOfNanos]
  omega

/-- The two halves of a timestamp do not overlap. -/
theorem lor_eq_add {seconds fraction : ℤ} (hseconds : 0 ≤ seconds) (hnonneg : 0 ≤ fraction)
    (hlt : fraction < 2 ^ 32) :
    (seconds * 2 ^ 32).toNat ||| fraction.toNat = (seconds * 2 ^ 32 + fraction).toNat := by
  lift seconds to ℕ using hseconds
  lift fraction to ℕ using hnonneg
  have hsmall : fraction < 2 ^ 32 := by omega
  have hshifted : ((seconds : ℤ) * 2 ^ 32).toNat = 2 ^ 32 * seconds := by omega
  rw [hshifted, Int.toNat_natCast, ← Nat.two_pow_add_eq_or_of_lt hsmall seconds]
  omega

/-- **What `physical_to_ntp_timestamp` computes**; nothing overflows. -/
theorem physicalToNtpTimestamp_eq (h : InNtpEra t) :
    physicalToNtpTimestamp t
      = pure (UInt64.ofNat (ntpOfNanos (t + secondsTo1970 * nanosPerSecond)).toNat) := by
  obtain ⟨hlow, hhigh⟩ := h
  rw [physicalToNtpTimestamp, ntpOfNanos]
  rw [secondsTo1970, nanosPerSecond] at *
  obtain ⟨nanos, hnanos⟩ : ∃ nanos, nanos = t + 2208988800 * 1000000000 := ⟨_, rfl⟩
  have hseconds : nanos.tdiv 1000000000 = nanos / 1000000000 :=
    Int.tdiv_eq_ediv_of_nonneg (by omega)
  have hfraction : nanos - nanos / 1000000000 * 1000000000 = nanos % 1000000000 := by omega
  have hdifference : t - (0 - 2208988800 * 1000000000) = nanos := by omega
  rw [← hnanos]
  rw [store_int64_bind _ (by decide)]
  rw [store_int64_bind _ (by decide), hdifference]
  rw [store_int64_bind _ (by rw [fits_int64]; omega), hseconds]
  dsimp only
  rw [store_int64_bind _ (by rw [fits_int64]; omega), hfraction]
  rw [store_int64_bind _ (by rw [fits_int64]; omega)]
  rw [store_uint64_bind _ (by rw [fits_uint64]; omega)]
  rw [store_uint64_bind _ (by rw [fits_uint64]; omega)]
  rw [store_uint64_bind _ (by rw [fits_uint64]; omega)]
  rw [store_uint64_bind _ (by rw [fits_uint64]; omega)]
  rw [lor_eq_add (by omega) (by omega) (by omega)]

/-- The lower half of a word. -/
theorem toNat_lowerHalf (x : UInt64) :
    (((x &&& 0xFFFFFFFF).toUInt32.toNat : ℕ) : ℤ) = x.toNat % 2 ^ 32 := by
  have hmask : x.toNat &&& 0xFFFFFFFF = x.toNat % 2 ^ 32 := Nat.and_two_pow_sub_one_eq_mod _ 32
  have hand : (x &&& 0xFFFFFFFF).toNat = x.toNat &&& 0xFFFFFFFF := UInt64.toNat_and x 0xFFFFFFFF
  rw [UInt64.toNat_toUInt32, hand, hmask]
  omega

theorem toNat_shiftRight_half (x : UInt64) : (x >>> 32).toNat = x.toNat / 2 ^ 32 := by
  rw [UInt64.toNat_shiftRight]
  exact Nat.shiftRight_eq_div_pow _ _

/-- **What `ntp_to_physical_timestamp` computes**; nothing overflows but the difference of
the epochs. -/
theorem ntpToPhysicalTimestamp_eq (ntp : UInt64) :
    ntpToPhysicalTimestamp ntp = pure (nanosOfNtp ntp.toNat - secondsTo1970 * nanosPerSecond) := by
  have hlt := ntp.toNat_lt
  have hntp : (ntp.toNat : ℤ) < 2 ^ 64 := by omega
  have hupper : ((((ntp >>> 32) &&& 0xFFFFFFFF).toUInt32.toNat : ℕ) : ℤ) = ntp.toNat / 2 ^ 32 := by
    rw [toNat_lowerHalf, toNat_shiftRight_half]
    omega
  rw [ntpToPhysicalTimestamp, nanosOfNtp]
  dsimp only
  rw [hupper, toNat_lowerHalf, secondsTo1970, nanosPerSecond]
  rw [convert_bind]
  rw [store_uint64_bind _ (by rw [fits_uint64]; omega)]
  rw [convert_bind]
  rw [wrap_int64_wrap_uint64 (by rw [fits_int64]; omega)]
  rw [store_int64_bind _ (by rw [fits_int64]; omega)]
  rw [store_int64_bind _ (by rw [fits_int64]; omega)]
  rw [store_int64_bind _ (by rw [fits_int64]; omega)]
  rw [store_int64 (by rw [fits_int64]; omega)]
  congr 1
  ring

end

/-! ## There and back -/

section

variable {t t' nanos nanos' : ℤ}

/-- At most one nanosecond is lost. -/
theorem nanosOfNtp_ntpOfNanos (nanos : ℤ) :
    nanosOfNtp (ntpOfNanos nanos) = nanos ∨ nanosOfNtp (ntpOfNanos nanos) = nanos - 1 := by
  have hfraction : 0 ≤ nanos % 1000000000 * 2 ^ 32 / 1000000000 ∧
      nanos % 1000000000 * 2 ^ 32 / 1000000000 < 2 ^ 32 := by omega
  obtain ⟨hlow, hhigh⟩ : nanos % 1000000000 - 1 ≤ _ ∧ _ ≤ nanos % 1000000000 :=
    scale_back_bounds (nanos % 1000000000) (show (0 : ℤ) < 1000000000 by decide)
      (show (1000000000 : ℤ) ≤ 2 ^ 32 by decide)
  rw [nanosOfNtp, ntpOfNanos]
  generalize nanos % 1000000000 * 2 ^ 32 / 1000000000 = fraction at *
  have hseconds : (nanos / 1000000000 * 2 ^ 32 + fraction) / 2 ^ 32 = nanos / 1000000000 := by omega
  have hrest : (nanos / 1000000000 * 2 ^ 32 + fraction) % 2 ^ 32 = fraction := by omega
  rw [hseconds, hrest]
  omega

theorem ntpOfNanos_mono (h : nanos ≤ nanos') : ntpOfNanos nanos ≤ ntpOfNanos nanos' := by
  rw [ntpOfNanos, ntpOfNanos]
  omega

/-- The value of a timestamp of the era. -/
theorem toNat_physicalToNtpTimestamp (h : InNtpEra t) :
    ((physicalToNtpTimestamp t).value.toNat : ℤ)
      = ntpOfNanos (t + secondsTo1970 * nanosPerSecond) := by
  rw [physicalToNtpTimestamp_eq h]
  obtain ⟨hlow, hhigh⟩ := h
  rw [secondsTo1970, nanosPerSecond] at *
  obtain ⟨hnonneg, hlt⟩ : 0 ≤ ntpOfNanos (t + 2208988800 * 1000000000) ∧ _ :=
    ntpOfNanos_mem (by omega) (by omega)
  have hfits : (ntpOfNanos (t + 2208988800 * 1000000000)).toNat < 2 ^ 64 := by omega
  show ((UInt64.ofNat _).toNat : ℤ) = _
  rw [UInt64.toNat_ofNat_of_lt' hfits]
  exact Int.toNat_of_nonneg hnonneg

/-- **NTP conversion**: in the era nothing overflows, a nanosecond may be lost on the way
there and back, and the order is kept. -/
theorem ntpConversion :
    (∀ t, InNtpEra t →
      (physicalToNtpTimestamp t).exact = true ∧
        (ntpToPhysicalTimestamp (physicalToNtpTimestamp t).value).exact = true ∧
        ((ntpToPhysicalTimestamp (physicalToNtpTimestamp t).value).value = t ∨
          (ntpToPhysicalTimestamp (physicalToNtpTimestamp t).value).value = t - 1)) ∧
      ∀ t t', InNtpEra t → InNtpEra t' → t ≤ t' →
        (physicalToNtpTimestamp t).value ≤ (physicalToNtpTimestamp t').value := by
  constructor
  · intro t h
    refine ⟨?_, ?_, ?_⟩
    · rw [physicalToNtpTimestamp_eq h]
      rfl
    · rw [ntpToPhysicalTimestamp_eq]
      rfl
    · rw [ntpToPhysicalTimestamp_eq, toNat_physicalToNtpTimestamp h]
      show _ - _ = t ∨ _ - _ = t - 1
      rcases nanosOfNtp_ntpOfNanos (t + secondsTo1970 * nanosPerSecond) with hexact | hless
      · exact Or.inl (by rw [hexact]; ring)
      · exact Or.inr (by rw [hless]; ring)
  · intro t t' h h' hle
    rw [UInt64.le_iff_toNat_le, ← Int.ofNat_le, toNat_physicalToNtpTimestamp h,
      toNat_physicalToNtpTimestamp h']
    exact ntpOfNanos_mono (Int.add_le_add_right hle _)

/-- An instant of 2023, which loses a nanosecond, and the last one of the era. -/
theorem ntpConversion_sample :
    ((physicalToNtpTimestamp 1700000000123456789).exact = true ∧
      ((ntpToPhysicalTimestamp (physicalToNtpTimestamp 1700000000123456789).value).value
          = 1700000000123456789 ∨
        (ntpToPhysicalTimestamp (physicalToNtpTimestamp 1700000000123456789).value).value
          = 1700000000123456788)) ∧
      (physicalToNtpTimestamp 1700000000123456789).value
        ≤ (physicalToNtpTimestamp 2085978495999999999).value := by
  have hera : InNtpEra 1700000000123456789 := by decide
  have hlast : InNtpEra 2085978495999999999 := by decide
  obtain ⟨hexact, -, hback⟩ := ntpConversion.1 _ hera
  exact ⟨⟨hexact, hback⟩, ntpConversion.2 _ _ hera hlast (by decide)⟩

end

end QcDatabase
