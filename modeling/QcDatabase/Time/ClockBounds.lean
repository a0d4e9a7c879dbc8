/-
# How far received timestamps can push the clock

`update_logical_clock` takes over a received time that is ahead of the local clock by
at most `max_clock_drift`, after truncation to milliseconds.  So whatever is received
and whatever the clock does, the times that a service issues stay below its largest
clock reading so far, plus the drift, plus one millisecond (`bounded_foldl`).

With a negative drift nothing is taken over, and the bound is that for drift 0: the
first reading itself is to lie below it.
-/
import Mathlib.Order.MinMax
import QcDatabase.Lib.StepRuns
import QcDatabase.Time.HybridClock

namespace QcDatabase

/-- A call that issues a timestamp, at a reading of the system clock. -/
inductive ClockCall where
  | nowLogical (now : PhysicalTimestamp)
  | updateLogicalClock (received : HybridLogicalClock) (now : PhysicalTimestamp)

/-- A service, the largest of its clock readings and of its first `last_physical_time_`,
and the timestamps that it issued. -/
structure ClockRun where
  service : DefaultTimeService
  latest : PhysicalTimestamp
  issued : List HybridLogicalClock

namespace ClockRun

/-- Before the first call. -/
def start (s : DefaultTimeService) : ClockRun := ⟨s, s.lastPhysicalTime, []⟩

/-- The reading of the system clock in a call. -/
def reading : ClockCall → PhysicalTimestamp
  | .nowLogical now => now
  | .updateLogicalClock _ now => now

/-- The timestamp of a call and the service after it. -/
def issue (s : DefaultTimeService) : ClockCall → HybridLogicalClock × DefaultTimeService
  | .nowLogical now => s.nowLogical now
  | .updateLogicalClock received now => s.updateLogicalClock received now

/-- After a call. -/
def step (r : ClockRun) (call : ClockCall) : ClockRun where
  service := (issue r.service call).2
  latest := max r.latest (r.service.nowSynchronized (reading call))
  issued := r.issued ++ [(issue r.service call).1]

/-- The bound for a drift. -/
def bound (r : ClockRun) (drift : Milliseconds) : PhysicalTimestamp :=
  r.latest + drift * nanosPerMilli + nanosPerMilli

/-! ## One call -/

/-- A difference of `d` whole milliseconds is less than one millisecond more. -/
theorem lt_of_toMilliseconds_le {difference d : ℤ} (hd : 0 ≤ d)
    (h : toMilliseconds difference ≤ d) : difference < d * nanosPerMilli + nanosPerMilli := by
  rw [toMilliseconds] at h
  by_cases hsign : difference < 0
  · rw [nanosPerMilli]
    omega
  · rw [Int.tdiv_eq_ediv_of_nonneg (not_lt.mp hsign)] at h
    have hquotient : difference / 1000000 ≤ d := h
    rw [nanosPerMilli]
    omega

/-- A time that passes the test is less than the drift and a millisecond ahead. -/
theorem lt_of_within {received current : PhysicalTimestamp} {drift : Milliseconds}
    (h : toMilliseconds (received - current) ≤ drift) :
    received < current + max drift 0 * nanosPerMilli + nanosPerMilli := by
  have hlt := lt_of_toMilliseconds_le (le_max_right drift 0) (h.trans (le_max_left drift 0))
  rw [Int.add_assoc]
  exact Int.lt_add_of_sub_left_lt hlt

/-- The reading itself is below the bound, whatever the drift. -/
theorem lt_add_drift (now : PhysicalTimestamp) (drift : Milliseconds) :
    now < now + max drift 0 * nanosPerMilli + nanosPerMilli := by
  have hpos : 0 ≤ max drift 0 * nanosPerMilli := Int.mul_nonneg (le_max_right _ _) (by decide)
  have hnano : (0 : ℤ) < nanosPerMilli := by decide
  exact Int.lt_of_lt_of_le (Int.lt_add_of_pos_right _ hnano)
    (Int.add_le_add_right (Int.le_add_of_nonneg_right hpos) _)

/-- What `now_logical` issues: the last physical time or the local clock. -/
theorem nowLogical_cases (s : DefaultTimeService) (now : PhysicalTimestamp) :
    ((s.nowLogical now).1.physicalTime = s.lastPhysicalTime ∨
        (s.nowLogical now).1.physicalTime = s.nowSynchronized now) ∧
      ((s.nowLogical now).2.lastPhysicalTime = (s.nowLogical now).1.physicalTime ∨
        (s.nowLogical now).2.lastPhysicalTime = s.lastPhysicalTime) ∧
      (s.nowLogical now).2.config = s.config := by
  rw [DefaultTimeService.nowLogical]
  split_ifs
  · refine ⟨?_, Or.inl rfl, rfl⟩
    rw [DefaultTimeService.incrementLogicalClock]
    dsimp only
    split_ifs
    · exact Or.inr rfl
    · exact Or.inl rfl
  · exact ⟨Or.inr rfl, Or.inr rfl, rfl⟩

/-- **What a call issues**: the last physical time, the local clock, or a received time
that passed the test. -/
theorem issue_cases (s : DefaultTimeService) (call : ClockCall) :
    ((issue s call).1.physicalTime = s.lastPhysicalTime ∨
        (issue s call).1.physicalTime
          < s.nowSynchronized (reading call) + max s.config.maxClockDrift 0 * nanosPerMilli
            + nanosPerMilli) ∧
      ((issue s call).2.lastPhysicalTime = (issue s call).1.physicalTime ∨
        (issue s call).2.lastPhysicalTime = s.lastPhysicalTime) ∧
      (issue s call).2.config = s.config := by
  have hreading : ∀ now, s.nowSynchronized now
      < s.nowSynchronized now + max s.config.maxClockDrift 0 * nanosPerMilli + nanosPerMilli :=
    fun now => lt_add_drift _ _
  have hlocal : ∀ now, ((s.nowLogical now).1.physicalTime = s.lastPhysicalTime ∨
      (s.nowLogical now).1.physicalTime
        < s.nowSynchronized now + max s.config.maxClockDrift 0 * nanosPerMilli + nanosPerMilli) ∧
      ((s.nowLogical now).2.lastPhysicalTime = (s.nowLogical now).1.physicalTime ∨
        (s.nowLogical now).2.lastPhysicalTime = s.lastPhysicalTime) ∧
      (s.nowLogical now).2.config = s.config := by
    intro now
    obtain ⟨hissued, hlast⟩ := nowLogical_cases s now
    refine ⟨hissued.imp_right fun heq => ?_, hlast⟩
    rw [heq]
    exact hreading now
  cases call with
  | nowLogical now => exact hlocal now
  | updateLogicalClock received now =>
      rw [issue, DefaultTimeService.updateLogicalClock]
      split_ifs with henabled
      · exact hlocal now
      · refine ⟨Or.inr ?_, Or.inl rfl, rfl⟩
        dsimp only [reading]
        split_ifs with hlt heq hdrift
        · exact hreading now
        · exact hreading now
        · exact hreading now
        · exact lt_of_within (not_lt.mp hdrift)

/-! ## Runs -/

/-- Nothing that was issued, and no `last_physical_time_`, reaches the bound. -/
structure Bounded (drift : Milliseconds) (r : ClockRun) : Prop where
  last : r.service.lastPhysicalTime < r.bound drift
  issued : ∀ t ∈ r.issued, t.physicalTime < r.bound drift

/-- **Step lemma.** -/
theorem bounded_step {config : TimeSyncConfig} {r : ClockRun}
    (h : r.Bounded (max config.maxClockDrift 0) ∧ r.service.config = config) (call : ClockCall) :
    (r.step call).Bounded (max config.maxClockDrift 0) ∧ (r.step call).service.config = config := by
  obtain ⟨hbounded, hconfig⟩ := h
  obtain ⟨hissued, hlast, hsame⟩ := issue_cases r.service call
  rw [hconfig] at hissued hsame
  have hgrows : r.bound (max config.maxClockDrift 0) ≤ (r.step call).bound (max config.maxClockDrift 0) :=
    Int.add_le_add_right (Int.add_le_add_right (le_max_left _ _) _) _
  have hreading : r.service.nowSynchronized (reading call) + max config.maxClockDrift 0 * nanosPerMilli
      + nanosPerMilli ≤ (r.step call).bound (max config.maxClockDrift 0) :=
    Int.add_le_add_right (Int.add_le_add_right (le_max_right _ _) _) _
  have hnew : (issue r.service call).1.physicalTime
      < (r.step call).bound (max config.maxClockDrift 0) := by
    rcases hissued with heq | hlt
    · rw [heq]
      exact hbounded.last.trans_le hgrows
    · exact hlt.trans_le hreading
  refine ⟨⟨?_, ?_⟩, hsame⟩
  · show (issue r.service call).2.lastPhysicalTime < _
    rcases hlast with heq | heq
    · rw [heq]
      exact hnew
    · rw [heq]
      exact hbounded.last.trans_le hgrows
  · refine List.forall_mem_append.mpr ⟨?_, List.forall_mem_singleton.mpr hnew⟩
    exact fun t ht => (hbounded.issued t ht).trans_le hgrows

/-- **Received timestamps do not push the clock further and further.**  After any calls,
what was issued and `last_physical_time_` are below the largest reading so far, plus the
drift (if it is positive), plus one millisecond. -/
theorem bounded_foldl (s : DefaultTimeService) (calls : List ClockCall) :
    (calls.foldl step (start s)).Bounded (max s.config.maxClockDrift 0) := by
  have hstart : (start s).Bounded (max s.config.maxClockDrift 0) := by
    refine ⟨?_, List.forall_mem_nil _⟩
    have hpos : 0 ≤ max s.config.maxClockDrift 0 * nanosPerMilli :=
      Int.mul_nonneg (le_max_right _ _) (by decide)
    exact Int.lt_of_lt_of_le (Int.lt_add_of_pos_right _ (show (0 : ℤ) < nanosPerMilli by decide))
      (Int.add_le_add_right (Int.le_add_of_nonneg_right hpos) _)
  exact (StepRun.invariant (fun r : ClockRun =>
    r.Bounded (max s.config.maxClockDrift 0) ∧ r.service.config = s.config)
    (fun _ call h => bounded_step h call) ⟨hstart, rfl⟩ calls).1

/-- A service whose drift is -1 ms. -/
def negativeDrift : DefaultTimeService :=
  { DefaultTimeService.create 0 with
    config := { TimeSyncConfig.default with maxClockDrift := -1 } }

/-- With a negative drift the first timestamp is not below the sum. -/
theorem not_bounded_negativeDrift :
    negativeDrift.config.enableHybridLogicalClock = true ∧
      ¬ ([ClockCall.nowLogical 0].foldl step (start negativeDrift)).Bounded
        negativeDrift.config.maxClockDrift := by
  refine ⟨rfl, ?_⟩
  intro h
  exact absurd h.last (by decide)

end ClockRun

end QcDatabase
