/-
# The clock of the time service (`src/time/time_sync.cpp`)

A hybrid timestamp is a physical time and a logical counter (`HybridLogicalClock`).
`DefaultTimeService` keeps the last one that it issued, as `lastPhysicalTime` and
`logicalTime`, and makes the next one out of it and a reading of the local clock:
`nowLogical` for an event of its own, `updateLogicalClock` for a timestamp that it
received.

The reading is that of `now_synchronized`, the system clock corrected by the offset of
the service; readings of the system clock are arguments.  Time points are unbounded
here: their differences are taken to fit 64 bits.
-/
import Mathlib.Algebra.Order.Group.Int
import Mathlib.Data.Rat.Defs
import QcDatabase.Common.Types
import QcDatabase.Lib.UnorderedMap

namespace QcDatabase

/-! ## Timestamps -/

/-- `LogicalTimestamp`. -/
abbrev LogicalTimestamp := UInt64

/-- `PhysicalTimestamp`. -/
abbrev PhysicalTimestamp := TimePoint

/-- `ClockOffset`. -/
abbrev ClockOffset := Milliseconds

/-- `HybridLogicalClock`. -/
structure HybridLogicalClock where
  physicalTime : PhysicalTimestamp
  logicalTime : LogicalTimestamp
  deriving DecidableEq, Repr

namespace HybridLogicalClock

variable {a b c : HybridLogicalClock}

/-- `HybridLogicalClock::operator<`. -/
instance : LT HybridLogicalClock where
  lt a b :=
    if a.physicalTime ≠ b.physicalTime then a.physicalTime < b.physicalTime
    else a.logicalTime < b.logicalTime

/-- `HybridLogicalClock::operator<=`. -/
instance : LE HybridLogicalClock := ⟨fun a b => a < b ∨ a = b⟩

/-- By physical time, then by counter. -/
theorem lt_iff : a < b ↔ a.physicalTime < b.physicalTime ∨
    (a.physicalTime = b.physicalTime ∧ a.logicalTime < b.logicalTime) := by
  show (if a.physicalTime ≠ b.physicalTime then _ else _) ↔ _
  by_cases h : a.physicalTime = b.physicalTime <;> simp [h]

instance : DecidableLT HybridLogicalClock := fun _ _ => decidable_of_iff _ lt_iff.symm

instance : IsTrans HybridLogicalClock (· < ·) where
  trans a b c hab hbc := by
    rw [lt_iff] at hab hbc ⊢
    rcases hab with hab | ⟨hab, hab'⟩
    · rcases hbc with hbc | ⟨hbc, -⟩
      · exact Or.inl (hab.trans hbc)
      · exact Or.inl (hbc ▸ hab)
    · rcases hbc with hbc | ⟨hbc, hbc'⟩
      · exact Or.inl (hab ▸ hbc)
      · exact Or.inr ⟨hab.trans hbc, UInt64.lt_trans hab' hbc'⟩

end HybridLogicalClock

/-! ## The service -/

/-- `TimeSyncConfig`. -/
structure TimeSyncConfig where
  syncInterval : Milliseconds
  maxClockDrift : Milliseconds
  syncTimeout : Milliseconds
  minSamples : UInt32
  enableNtpSync : Bool
  ntpServers : List String
  ntpSyncInterval : Milliseconds
  offsetFilterAlpha : Float
  maxOffsetAge : Milliseconds
  enableHybridLogicalClock : Bool

/-- `TimeSyncConfig::TimeSyncConfig`. -/
def TimeSyncConfig.default : TimeSyncConfig where
  syncInterval := 5000
  maxClockDrift := 100
  syncTimeout := 1000
  minSamples := 3
  enableNtpSync := false
  ntpServers := ["pool.ntp.org", "time.google.com"]
  ntpSyncInterval := 300000
  offsetFilterAlpha := 0.125
  maxOffsetAge := 60000
  enableHybridLogicalClock := true

/-- `ClockOffsetInfo`.  The confidence is a multiple of a tenth; as a `double` it
compares with a half in the same way. -/
structure ClockOffsetInfo where
  nodeId : NodeId
  offset : ClockOffset
  uncertainty : Milliseconds
  lastSync : PhysicalTimestamp
  syncCount : UInt32
  confidence : ℚ

/-- `DefaultTimeService`, with the two background threads; `eventHandler` says whether
there is one. -/
structure DefaultTimeService where
  config : TimeSyncConfig
  eventHandler : Bool
  nodeOffsets : UnorderedMap NodeId ClockOffsetInfo
  /-- without repetitions -/
  syncNodes : List NodeId
  localOffset : ClockOffset
  logicalTime : LogicalTimestamp
  lastPhysicalTime : PhysicalTimestamp
  isRunning : Bool
  stopThreads : Bool
  syncAttempts : UInt64
  syncSuccesses : UInt64
  syncFailures : UInt64

namespace DefaultTimeService

/-- `DefaultTimeService::DefaultTimeService`, at clock reading `now`. -/
def create (now : PhysicalTimestamp) : DefaultTimeService where
  config := TimeSyncConfig.default
  eventHandler := false
  nodeOffsets := ∅
  syncNodes := []
  localOffset := 0
  logicalTime := 0
  lastPhysicalTime := now
  isRunning := false
  stopThreads := false
  syncAttempts := 0
  syncSuccesses := 0
  syncFailures := 0

/-- `DefaultTimeService::now_synchronized`. -/
def nowSynchronized (s : DefaultTimeService) (now : PhysicalTimestamp) : PhysicalTimestamp :=
  now + s.localOffset * nanosPerMilli

/-- `DefaultTimeService::increment_logical_clock`. -/
def incrementLogicalClock (s : DefaultTimeService) (now : PhysicalTimestamp) :
    HybridLogicalClock × DefaultTimeService :=
  let currentPhysical := s.nowSynchronized now
  let result : HybridLogicalClock :=
    if s.lastPhysicalTime < currentPhysical then ⟨currentPhysical, 0⟩
    else ⟨s.lastPhysicalTime, s.logicalTime + 1⟩
  (result, { s with logicalTime := result.logicalTime, lastPhysicalTime := result.physicalTime })

/-- `DefaultTimeService::now_logical`. -/
def nowLogical (s : DefaultTimeService) (now : PhysicalTimestamp) :
    HybridLogicalClock × DefaultTimeService :=
  if s.config.enableHybridLogicalClock then s.incrementLogicalClock now
  else (⟨s.nowSynchronized now, 0⟩, s)

/-- `std::max` of two counters. -/
def maxLogical (a b : LogicalTimestamp) : LogicalTimestamp := if a < b then b else a

/-- `DefaultTimeService::update_logical_clock`; its call of `now_logical` is taken as the
body of that function. -/
def updateLogicalClock (s : DefaultTimeService) (received : HybridLogicalClock)
    (now : PhysicalTimestamp) : HybridLogicalClock × DefaultTimeService :=
  if !s.config.enableHybridLogicalClock then s.nowLogical now
  else
    let currentPhysical := s.nowSynchronized now
    let currentLogical := s.logicalTime
    let result : HybridLogicalClock :=
      if received.physicalTime < currentPhysical then
        ⟨currentPhysical, maxLogical currentLogical received.logicalTime + 1⟩
      else if currentPhysical = received.physicalTime then
        ⟨currentPhysical, maxLogical currentLogical received.logicalTime + 1⟩
      else
        let offset := toMilliseconds (received.physicalTime - currentPhysical)
        -- too far ahead: the physical time is not taken over, the counter is
        if s.config.maxClockDrift < offset then ⟨currentPhysical, received.logicalTime + 1⟩
        else ⟨received.physicalTime, received.logicalTime + 1⟩
    -- `last_physical_time_` is not looked at
    (result, { s with logicalTime := result.logicalTime, lastPhysicalTime := result.physicalTime })

end DefaultTimeService

end QcDatabase
