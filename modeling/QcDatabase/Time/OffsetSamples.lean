/-
# The samples of `handle_time_response`

A request leaves at an instant of the local clock; `handle_time_request` answers it with
two instants of the remote clock, and `handle_time_response` compares them with the local
clock again.  What it takes for the round trip goes from the local clock to the remote
one, so that half of the offset that is to be measured is added to it, and the delay is
taken into account a second time.  The sample is right only for delays close to the offset
itself (`exact_iff`, `delay_near_of_exact`).
-/
import Mathlib.Algebra.Order.Group.Abs
import Mathlib.Tactic.Ring
import QcDatabase.Lib.MachineIntegers
import QcDatabase.Time.TimeService

namespace QcDatabase

/-! ## An exchange of messages -/

/-- A time request and its response. -/
structure TimeExchange where
  localNode : DefaultTimeService
  remoteNode : DefaultTimeService
  request : TimeSyncMessage
  /-- the local system clock when the request is sent -/
  sent : TimePoint
  /-- how far the remote system clock is ahead of the local one -/
  skew : ℤ
  /-- the delay of the network, in nanoseconds, the same both ways -/
  delay : ℕ
  uninitialized : ClockOffset

namespace TimeExchange

/-- The offset of the remote clock relative to the local one. -/
def trueOffset (x : TimeExchange) : ℤ :=
  x.skew + (x.remoteNode.localOffset - x.localNode.localOffset) * nanosPerMilli

/-- The response, which takes the remote node no time. -/
def response (x : TimeExchange) : TimeSyncMessage :=
  let received := x.sent + x.delay + x.skew
  x.remoteNode.handleTimeRequest { x.request with sendTime := x.localNode.nowSynchronized x.sent }
    received received x.uninitialized

/-- The sample that the local node computes when it gets the response. -/
def sample (x : TimeExchange) : ClockOffset :=
  (x.localNode.sampleOfResponse x.response (x.sent + 2 * x.delay)).1

/-- The sample is the true offset, up to a millisecond. -/
def Exact (x : TimeExchange) : Prop := |x.sample * nanosPerMilli - x.trueOffset| ≤ nanosPerMilli

/-- The sample in terms of the offset and the delay. -/
theorem sample_eq (x : TimeExchange) :
    x.sample = (x.trueOffset - x.delay + (x.trueOffset + x.delay).tdiv 2).tdiv 1000000 := by
  have hrtt : x.response.responseTime - x.response.sendTime = x.trueOffset + x.delay := by
    show x.remoteNode.nowSynchronized _ - x.localNode.nowSynchronized _ = _
    rw [DefaultTimeService.nowSynchronized, DefaultTimeService.nowSynchronized, trueOffset]
    ring
  have hremote : x.response.receiveTime - x.localNode.nowSynchronized (x.sent + 2 * x.delay)
      = x.trueOffset - x.delay := by
    show x.remoteNode.nowSynchronized _ - _ = _
    rw [DefaultTimeService.nowSynchronized, DefaultTimeService.nowSynchronized, trueOffset]
    ring
  rw [sample, DefaultTimeService.sampleOfResponse, hrtt]
  dsimp only
  rw [toMilliseconds, nanosPerMilli, add_sub_right_comm, hremote]

/-! ## The delays for which a sample is exact -/

/-- The shortest delay for which the sample of an offset is exact. -/
def shortestDelay (offset : ℤ) : ℤ := 3 * offset - 2 * (offset / 1000000 + 2) * 1000000 + 1

/-- The longest delay for which the sample of an offset is exact. -/
def longestDelay (offset : ℤ) : ℤ :=
  if 1000000 < offset then 3 * offset - 2 * ((offset - 1) / 1000000) * 1000000
  else
    let longest := 3 * offset - 2 * ((offset - 1) / 1000000 - 1) * 1000000 - 1
    if offset + longest < 0 then longest else longest - 1

theorem exact_sample_iff {t d k h : ℤ} (hd : 0 ≤ d) (hh : h = (t + d).tdiv 2)
    (hk : k = (t - d + h).tdiv 1000000) :
    |k * 1000000 - t| ≤ 1000000 ↔ shortestDelay t ≤ d ∧ d ≤ longestDelay t := by
  have hhalf : 0 ≤ t + d ∧ h * 2 ≤ t + d ∧ t + d < h * 2 + 2 ∨
      t + d < 0 ∧ t + d ≤ h * 2 ∧ h * 2 < t + d + 2 := by
    rw [hh]
    rcases le_or_gt 0 (t + d) with hsum | hsum
    · exact Or.inl ⟨hsum, (tdiv_bounds_of_nonneg hsum (by decide)).2⟩
    · exact Or.inr ⟨hsum, (tdiv_bounds_of_neg hsum (by decide)).2⟩
  have hmillis : 0 ≤ t - d + h ∧ k * 1000000 ≤ t - d + h ∧ t - d + h < k * 1000000 + 1000000 ∨
      t - d + h < 0 ∧ t - d + h ≤ k * 1000000 ∧ k * 1000000 < t - d + h + 1000000 := by
    rw [hk]
    rcases le_or_gt 0 (t - d + h) with hsum | hsum
    · exact Or.inl ⟨hsum, (tdiv_bounds_of_nonneg hsum (by decide)).2⟩
    · exact Or.inr ⟨hsum, (tdiv_bounds_of_neg hsum (by decide)).2⟩
  clear hh hk
  rw [abs_le, shortestDelay, longestDelay]
  split_ifs
  · omega
  · dsimp only
    split_ifs
    · omega
    · omega

/-- **When a sample is exact.** -/
theorem exact_iff (x : TimeExchange) :
    x.Exact ↔ shortestDelay x.trueOffset ≤ x.delay ∧ x.delay ≤ longestDelay x.trueOffset := by
  rw [Exact, nanosPerMilli]
  exact exact_sample_iff (Int.natCast_nonneg _) rfl x.sample_eq

/-- The delay has to be the offset, up to four milliseconds. -/
theorem delay_near_of_exact {x : TimeExchange} (h : x.Exact) :
    |(x.delay : ℤ) - x.trueOffset| < 4000000 := by
  obtain ⟨hshort, hlong⟩ := (exact_sample_iff (Int.natCast_nonneg x.delay) rfl x.sample_eq).mp h
  rw [shortestDelay] at hshort
  rw [longestDelay] at hlong
  rw [abs_lt]
  split_ifs at hlong
  · omega
  · dsimp only at hlong
    split_ifs at hlong
    · omega
    · omega

/-- Two synchronized clocks, and a network that takes ten milliseconds. -/
def sampleExchange : TimeExchange :=
  ⟨DefaultTimeService.create 0, DefaultTimeService.create 0,
    ⟨.timeRequest, [], [], 0, 0, 0, 0, 0⟩, 0, 0, 10000000, 0⟩

theorem not_exact_sampleExchange :
    sampleExchange.trueOffset = 0 ∧ sampleExchange.sample = -5 ∧ ¬ sampleExchange.Exact := by
  refine ⟨by decide, by decide +kernel, ?_⟩
  rw [Exact]
  decide +kernel

end TimeExchange

end QcDatabase
