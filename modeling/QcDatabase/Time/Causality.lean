/-
# Hybrid timestamps and causality

Nodes with a `DefaultTimeService` each issue timestamps, for events of their own and
for timestamps of other nodes that are delivered to them (`ClockSystem.step`).  The
timestamps are to follow the causal order of these events.

A timestamp is above the one that was delivered, and a local event is above the last
timestamp of its node.  A delivery need not be: `update_logical_clock` does not compare
with `last_physical_time_`, which may be ahead of the local clock since an earlier
delivery.  `KeepsOrder` says when it is all right, and the timestamps of a run follow
the causal order iff this is so at every delivery (`ordered_iff_along`).
-/
import QcDatabase.Lib.HappenedBefore
import QcDatabase.Lib.StepRuns
import QcDatabase.Time.HybridClock

open HappenedBefore StepRun

namespace QcDatabase

/-! ## One service -/

theorem UInt64.lt_add_one_of_lt {c : UInt64} (h : c.toNat < 2 ^ 64 - 1) : c < c + 1 := by
  rw [UInt64.lt_iff_toNat_lt, UInt64.toNat_add]
  have hone : (1 : UInt64).toNat = 1 := rfl
  rw [hone, Nat.mod_eq_of_lt (by omega)]
  omega

namespace DefaultTimeService

theorem maxLogical_cases (a b : LogicalTimestamp) :
    maxLogical a b = a ∧ b ≤ a ∨ maxLogical a b = b ∧ a < b := by
  rw [maxLogical]
  split_ifs with h
  · exact Or.inr ⟨rfl, h⟩
  · exact Or.inl ⟨rfl, UInt64.not_lt.mp h⟩

/-- A counter is below the next one after the larger of two. -/
theorem lt_maxLogical_add_one {a b : LogicalTimestamp} (ha : a.toNat < 2 ^ 64 - 1)
    (hb : b.toNat < 2 ^ 64 - 1) : a < maxLogical a b + 1 ∧ b < maxLogical a b + 1 := by
  rcases maxLogical_cases a b with ⟨heq, hle⟩ | ⟨heq, hlt⟩
  · rw [heq]
    have hnext := UInt64.lt_add_one_of_lt ha
    exact ⟨hnext, UInt64.lt_of_le_of_lt hle hnext⟩
  · rw [heq]
    have hnext := UInt64.lt_add_one_of_lt hb
    exact ⟨UInt64.lt_trans hlt hnext, hnext⟩

/-- The last timestamp of the service. -/
def lastIssued (s : DefaultTimeService) : HybridLogicalClock := ⟨s.lastPhysicalTime, s.logicalTime⟩

variable {s : DefaultTimeService} {received : HybridLogicalClock}

/-- The service remembers what it issues. -/
theorem lastIssued_nowLogical (henabled : s.config.enableHybridLogicalClock = true)
    (now : PhysicalTimestamp) : (s.nowLogical now).2.lastIssued = (s.nowLogical now).1 := by
  rw [nowLogical, if_pos henabled]
  rfl

theorem lastIssued_updateLogicalClock (henabled : s.config.enableHybridLogicalClock = true)
    (received : HybridLogicalClock) (now : PhysicalTimestamp) :
    (s.updateLogicalClock received now).2.lastIssued = (s.updateLogicalClock received now).1 := by
  rw [updateLogicalClock, if_neg (by simp [henabled])]
  rfl

/-- A local event comes after what the service issued. -/
theorem lastIssued_lt_nowLogical (henabled : s.config.enableHybridLogicalClock = true)
    (hcounter : s.logicalTime.toNat < 2 ^ 64 - 1) (now : PhysicalTimestamp) :
    s.lastIssued < (s.nowLogical now).1 := by
  rw [nowLogical, if_pos henabled, incrementLogicalClock, HybridLogicalClock.lt_iff]
  dsimp only
  split_ifs with h
  · exact Or.inl h
  · exact Or.inr ⟨rfl, UInt64.lt_add_one_of_lt hcounter⟩

/-- The received time is at most `max_clock_drift` ahead of the local clock. -/
def WithinDrift (s : DefaultTimeService) (received : HybridLogicalClock)
    (now : PhysicalTimestamp) : Prop :=
  received.physicalTime ≤ s.nowSynchronized now + s.config.maxClockDrift * nanosPerMilli

instance (s : DefaultTimeService) (received : HybridLogicalClock) (now : PhysicalTimestamp) :
    Decidable (s.WithinDrift received now) :=
  inferInstanceAs (Decidable (received.physicalTime ≤ _))

/-- What a delivery issues if the received time is not too far ahead. -/
theorem updateLogicalClock_fst (henabled : s.config.enableHybridLogicalClock = true)
    {now : PhysicalTimestamp} (hdrift : s.WithinDrift received now) :
    (s.updateLogicalClock received now).1 =
      if received.physicalTime ≤ s.nowSynchronized now then
        ⟨s.nowSynchronized now, maxLogical s.logicalTime received.logicalTime + 1⟩
      else ⟨received.physicalTime, received.logicalTime + 1⟩ := by
  rw [updateLogicalClock, if_neg (by simp [henabled])]
  dsimp only
  rcases lt_trichotomy received.physicalTime (s.nowSynchronized now) with hlt | heq | hgt
  · rw [if_pos hlt, if_pos hlt.le]
  · rw [if_neg heq.not_lt, if_pos heq.symm, if_pos heq.le]
  · have hle : toMilliseconds (received.physicalTime - s.nowSynchronized now)
        ≤ s.config.maxClockDrift := by
      rw [toMilliseconds, Int.tdiv_eq_ediv_of_nonneg (Int.sub_nonneg.mpr hgt.le)]
      exact Int.ediv_le_of_le_mul (by decide) (Int.sub_left_le_of_le_add hdrift)
    rw [if_neg hgt.not_gt, if_neg hgt.ne, if_neg (not_lt.mpr hle), if_neg (not_le.mpr hgt)]

/-- A delivery comes after the timestamp that is delivered. -/
theorem received_lt_updateLogicalClock (henabled : s.config.enableHybridLogicalClock = true)
    (hcounter : s.logicalTime.toNat < 2 ^ 64 - 1)
    (hreceived : received.logicalTime.toNat < 2 ^ 64 - 1) {now : PhysicalTimestamp}
    (hdrift : s.WithinDrift received now) : received < (s.updateLogicalClock received now).1 := by
  rw [updateLogicalClock_fst henabled hdrift, HybridLogicalClock.lt_iff]
  split_ifs with h
  · rcases h.lt_or_eq with hlt | heq
    · exact Or.inl hlt
    · exact Or.inr ⟨heq, (lt_maxLogical_add_one hcounter hreceived).2⟩
  · exact Or.inr ⟨rfl, UInt64.lt_add_one_of_lt hreceived⟩

/-- The local clock or the received time has come up to `last_physical_time_`; and if it
is the received time, and no further, its counter has come up to that of the service. -/
def CatchesUp (s : DefaultTimeService) (received : HybridLogicalClock) (now : PhysicalTimestamp) :
    Prop :=
  s.lastPhysicalTime ≤ max (s.nowSynchronized now) received.physicalTime ∧
    (s.nowSynchronized now < received.physicalTime →
      received.physicalTime = s.lastPhysicalTime → s.logicalTime ≤ received.logicalTime)

instance (s : DefaultTimeService) (received : HybridLogicalClock) (now : PhysicalTimestamp) :
    Decidable (s.CatchesUp received now) :=
  inferInstanceAs (Decidable (_ ∧ _))

/-- **A delivery comes after what the service issued** iff it catches up with that. -/
theorem lastIssued_lt_updateLogicalClock_iff (henabled : s.config.enableHybridLogicalClock = true)
    (hcounter : s.logicalTime.toNat < 2 ^ 64 - 1)
    (hreceived : received.logicalTime.toNat < 2 ^ 64 - 1) {now : PhysicalTimestamp}
    (hdrift : s.WithinDrift received now) :
    s.lastIssued < (s.updateLogicalClock received now).1 ↔ s.CatchesUp received now := by
  rw [updateLogicalClock_fst henabled hdrift, HybridLogicalClock.lt_iff, CatchesUp, lastIssued]
  split_ifs with h
  · have hnext := (lt_maxLogical_add_one hcounter hreceived).1
    rw [max_eq_left h]
    simp only [hnext, and_true, ← le_iff_lt_or_eq]
    constructor
    · exact fun hle => ⟨hle, fun hlt => absurd hlt (not_lt.mpr h)⟩
    · exact And.left
  · rw [max_eq_right (not_le.mp h).le]
    have hcounters : s.logicalTime < received.logicalTime + 1 ↔
        s.logicalTime ≤ received.logicalTime := by
      have hone : (1 : UInt64).toNat = 1 := rfl
      rw [UInt64.lt_iff_toNat_lt, UInt64.le_iff_toNat_le, UInt64.toNat_add, hone,
        Nat.mod_eq_of_lt (by omega)]
      omega
    dsimp only
    rw [hcounters]
    constructor
    · rintro (hlt | ⟨heq, hle⟩)
      · exact ⟨hlt.le, fun _ heq => absurd heq hlt.ne'⟩
      · exact ⟨heq.le, fun _ _ => hle⟩
    · rintro ⟨hle, hcounter⟩
      rcases hle.lt_or_eq with hlt | heq
      · exact Or.inl hlt
      · exact Or.inr ⟨heq, hcounter (not_le.mp h) heq.symm⟩

end DefaultTimeService

/-! ## Nodes -/

/-- An event at a node, at a reading of its system clock: an event of its own, or the
delivery of the timestamp of the event at position `source`. -/
structure ClockEvent (N : Type) where
  node : N
  now : PhysicalTimestamp
  source : Option ℕ

/-- The services of the nodes, and the events so far with their timestamps. -/
structure ClockSystem (N : Type) where
  services : N → DefaultTimeService
  history : History N HybridLogicalClock

namespace ClockSystem

variable {N : Type} [DecidableEq N] {s : ClockSystem N} {e : ClockEvent N}

/-- The timestamp of an event and the service after it. -/
def issue (s : ClockSystem N) (e : ClockEvent N) : HybridLogicalClock × DefaultTimeService :=
  match e.source.bind (s.history[·]?) with
  | none => (s.services e.node).nowLogical e.now
  | some sent => (s.services e.node).updateLogicalClock sent.stamp e.now

/-- The system after an event. -/
def step (s : ClockSystem N) (e : ClockEvent N) : ClockSystem N where
  services := Function.update s.services e.node (s.issue e).2
  history := s.history ++ [⟨e.node, e.source, (s.issue e).1⟩]

/-- The clocks are hybrid ones, no counter is at its end, and what is delivered was issued
by another node and is not too far ahead of the local clock. -/
structure Admissible (s : ClockSystem N) (e : ClockEvent N) : Prop where
  enabled : (s.services e.node).config.enableHybridLogicalClock = true
  counter : (s.services e.node).logicalTime.toNat < 2 ^ 64 - 1
  delivered : ∀ i, e.source = some i → ∃ sent, s.history[i]? = some sent ∧
    sent.process ≠ e.node ∧ sent.stamp.logicalTime.toNat < 2 ^ 64 - 1 ∧
    (s.services e.node).WithinDrift sent.stamp e.now

/-- A delivery to a node that has issued timestamps catches up with the last one. -/
def KeepsOrder (s : ClockSystem N) (e : ClockEvent N) : Prop :=
  ∀ i sent a, e.source = some i → s.history[i]? = some sent → latest e.node s.history = some a →
    (s.services e.node).CatchesUp sent.stamp e.now

/-- Each service has issued last the timestamp of the latest event of its node. -/
def Recorded (s : ClockSystem N) : Prop :=
  ∀ n a, latest n s.history = some a → a.stamp = (s.services n).lastIssued

theorem Recorded.step (h : s.Recorded) (he : s.Admissible e) : (s.step e).Recorded := by
  have hissued : (s.issue e).2.lastIssued = (s.issue e).1 := by
    rw [issue]
    split
    · exact DefaultTimeService.lastIssued_nowLogical he.enabled e.now
    · exact DefaultTimeService.lastIssued_updateLogicalClock he.enabled _ e.now
  intro n a ha
  rw [ClockSystem.step, latest_append] at ha
  rw [ClockSystem.step]
  dsimp only at ha ⊢
  split_ifs at ha with hn
  · obtain rfl := Option.some.inj ha
    rw [← hn, Function.update_self, hissued]
  · rw [Function.update_of_ne (Ne.symm hn)]
    exact h n a ha

/-- **Step lemma.** -/
theorem ordered_step_iff (h : s.Recorded) (he : s.Admissible e) :
    Ordered (· < ·) (s.step e).history ↔ Ordered (· < ·) s.history ∧ s.KeepsOrder e := by
  rw [ClockSystem.step, ordered_append_iff]
  dsimp only
  apply and_congr_right
  intro _
  rcases hsource : e.source with _ | i
  · -- a local event
    have hissue : s.issue e = (s.services e.node).nowLogical e.now := by rw [issue, hsource]; rfl
    refine iff_of_true ⟨?_, by simp⟩ (by simp [KeepsOrder, hsource])
    intro a ha
    rw [h _ a ha, hissue]
    exact DefaultTimeService.lastIssued_lt_nowLogical he.enabled he.counter e.now
  · obtain ⟨sent, hsent, -, hreceived, hdrift⟩ := he.delivered i hsource
    have hissue : s.issue e = (s.services e.node).updateLogicalClock sent.stamp e.now := by
      rw [issue, hsource, Option.bind_some, hsent]
    have hlast := DefaultTimeService.lastIssued_lt_updateLogicalClock_iff he.enabled he.counter
      hreceived hdrift
    rw [hissue]
    constructor
    · rintro ⟨hlatest, -⟩ j sent' a hj hsent' ha
      rw [hsource] at hj
      obtain rfl := Option.some.inj hj
      rw [hsent] at hsent'
      obtain rfl := Option.some.inj hsent'
      rw [← hlast, ← h _ a ha]
      exact hlatest a ha
    · intro hkeeps
      refine ⟨?_, ?_⟩
      · intro a ha
        rw [h _ a ha, hlast]
        exact hkeeps i sent a hsource hsent ha
      · intro j b hj hb
        obtain rfl := Option.some.inj hj
        rw [hsent] at hb
        obtain rfl := Option.some.inj hb
        exact DefaultTimeService.received_lt_updateLogicalClock he.enabled he.counter hreceived
          hdrift

/-- **Run lemma.** -/
theorem ordered_foldl_iff (h : s.Recorded) {events : List (ClockEvent N)}
    (hadmissible : Along step Admissible s events) :
    Ordered (· < ·) (events.foldl step s).history ↔
      Ordered (· < ·) s.history ∧ Along step KeepsOrder s events := by
  induction events generalizing s with
  | nil => exact (and_iff_left trivial).symm
  | cons e events ih =>
      rw [List.foldl_cons, ih (h.step hadmissible.1) hadmissible.2,
        ordered_step_iff h hadmissible.1, Along, and_assoc]

/-- **When hybrid timestamps follow causality.**  They do iff every delivery to a node that
has issued timestamps catches up with the last of them. -/
theorem ordered_iff_along (services : N → DefaultTimeService) (events : List (ClockEvent N))
    (hadmissible : Along step Admissible ⟨services, []⟩ events) :
    Ordered (· < ·) (events.foldl step ⟨services, []⟩).history ↔
      Along step KeepsOrder ⟨services, []⟩ events := by
  have hrecorded : Recorded (⟨services, []⟩ : ClockSystem N) := by
    intro n a ha
    cases ha
  have hempty : Ordered (· < ·) ([] : History N HybridLogicalClock) := by
    intro i j a b _ ha _
    cases ha
  rw [ordered_foldl_iff hrecorded hadmissible, and_iff_right hempty]

/-- Two nodes, `false` and `true`, whose services were created at time 0. -/
def twoNodes : ClockSystem Bool := ⟨fun _ => DefaultTimeService.create 0, []⟩

/-- A timestamp goes from `true` to `false` and one comes back. -/
def exchange : List (ClockEvent Bool) :=
  [⟨true, 5000000, none⟩, ⟨false, 1000000, some 0⟩, ⟨true, 6000000, some 1⟩]

theorem ordered_exchange : Ordered (· < ·) (exchange.foldl step twoNodes).history := by
  have hadmissible : Along step Admissible twoNodes exchange := by
    refine ⟨⟨rfl, by decide, nofun⟩, ⟨rfl, by decide, ?_⟩, ⟨rfl, by decide, ?_⟩, trivial⟩
    · rintro i ⟨⟩
      exact ⟨_, rfl, by decide, by decide, by decide⟩
    · rintro i ⟨⟩
      exact ⟨_, rfl, by decide, by decide, by decide⟩
  refine (ordered_iff_along _ _ hadmissible).mpr ⟨nofun, ?_, ?_, trivial⟩
  · rintro i sent a ⟨⟩ ⟨⟩ ⟨⟩
  · rintro i sent a ⟨⟩ ⟨⟩ -
    decide

/-- `true` issues timestamps at 5 ms and at 50 ms; `false` receives the second one at
10 ms of its clock and the first one at 20 ms. -/
def lateDelivery : List (ClockEvent Bool) :=
  [⟨true, 5000000, none⟩, ⟨true, 50000000, none⟩, ⟨false, 10000000, some 1⟩,
    ⟨false, 20000000, some 0⟩]

/-- The second delivery issues `(20 ms, 2)` after `(50 ms, 1)`, though no clock went back. -/
theorem not_ordered_lateDelivery :
    (∀ n, ((lateDelivery.filter fun e => e.node = n).map ClockEvent.now).Pairwise (· ≤ ·)) ∧
      Along step Admissible twoNodes lateDelivery ∧
      ¬ Ordered (· < ·) (lateDelivery.foldl step twoNodes).history := by
  refine ⟨by decide, ?_, ?_⟩
  · refine ⟨⟨rfl, by decide, nofun⟩, ⟨rfl, by decide, nofun⟩, ⟨rfl, by decide, ?_⟩,
      ⟨rfl, by decide, ?_⟩, trivial⟩
    · rintro i ⟨⟩
      exact ⟨_, rfl, by decide, by decide, by decide⟩
    · rintro i ⟨⟩
      exact ⟨_, rfl, by decide, by decide, by decide⟩
  · intro h
    have hlt := h 2 3 _ _ (.single ⟨_, _, rfl, rfl, by decide, Or.inl rfl⟩) rfl rfl
    revert hlt
    decide

end ClockSystem

end QcDatabase
