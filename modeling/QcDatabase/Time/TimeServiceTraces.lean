/-
# The mutex of the time service

`DefaultTimeService` has one `std::shared_mutex`.  Its functions are written once more
here, with what they do to this mutex, in the order of the source; those that call
others which lock it on their own appear only here, the passes of the two background
threads among them.

What another thread does between two sections is left out; handlers of events are taken
not to call the service.
-/
import QcDatabase.Lib.SharedMutex
import QcDatabase.Time.TimeService

open SharedMutex

namespace QcDatabase

/-- The clock readings of a synchronization with a node. -/
structure SyncReadings where
  sendTime : PhysicalTimestamp
  responseTime : PhysicalTimestamp
  localTime : PhysicalTimestamp
  updated : PhysicalTimestamp

namespace DefaultTimeService

variable (s : DefaultTimeService)

/-! ## The clock -/

/-- `DefaultTimeService::now_logical`. -/
def nowLogicalTraced (now : PhysicalTimestamp) :
    Traced OwnMutex (HybridLogicalClock × DefaultTimeService) :=
  Traced.guarded .own .exclusive (pure (s.nowLogical now))

/-- `DefaultTimeService::update_logical_clock`: without hybrid clocks, `now_logical` is
called with the mutex locked. -/
def updateLogicalClockTraced (received : HybridLogicalClock) (now : PhysicalTimestamp) :
    Traced OwnMutex (HybridLogicalClock × DefaultTimeService) :=
  Traced.guarded .own .exclusive
    (if !s.config.enableHybridLogicalClock then s.nowLogicalTraced now
    else pure (s.updateLogicalClock received now))

theorem result_updateLogicalClockTraced (received : HybridLogicalClock) (now : PhysicalTimestamp) :
    (s.updateLogicalClockTraced received now).result = some (s.updateLogicalClock received now) := by
  rw [updateLogicalClockTraced, Traced.result_guarded, updateLogicalClock]
  split_ifs
  · exact Traced.result_section _ _ _
  · rfl

/-! ## The table of offsets -/

/-- `DefaultTimeService::get_offset`. -/
def getOffsetTraced (nodeId : NodeId) : Traced OwnMutex ClockOffset :=
  Traced.guarded .own .shared (pure (s.getOffset nodeId))

/-- `DefaultTimeService::set_offset`. -/
def setOffsetTraced (nodeId : NodeId) (offset : ClockOffset) (now : PhysicalTimestamp) :
    Traced OwnMutex (Result Unit × DefaultTimeService) :=
  Traced.guarded .own .exclusive (pure (s.setOffset nodeId offset now))

/-- `DefaultTimeService::get_all_offsets`. -/
def getAllOffsetsTraced (i : IterationOrder) : Traced OwnMutex (List ClockOffsetInfo) :=
  Traced.guarded .own .shared (pure (s.getAllOffsets i))

/-- `DefaultTimeService::update_offset_with_sample`. -/
def updateOffsetWithSampleTraced (nodeId : NodeId) (sample : ClockOffset)
    (uncertainty : Milliseconds) (now : PhysicalTimestamp) : Traced OwnMutex DefaultTimeService :=
  Traced.guarded .own .exclusive (pure (s.updateOffsetWithSample nodeId sample uncertainty now))

/-- `DefaultTimeService::detect_clock_drift`. -/
def detectClockDriftTraced (i : IterationOrder) : Traced OwnMutex (List TimeSyncEvent) :=
  Traced.guarded .own .shared (pure (s.detectClockDrift i))

/-- `DefaultTimeService::cleanup_expired_offsets`. -/
def cleanupExpiredOffsetsTraced (clock : NodeId → PhysicalTimestamp) :
    Traced OwnMutex DefaultTimeService :=
  Traced.guarded .own .exclusive (pure (s.cleanupExpiredOffsets clock))

/-- `DefaultTimeService::berkeley_algorithm`. -/
def berkeleyAlgorithmTraced (i : IterationOrder) : Traced OwnMutex (Result ClockOffset) :=
  Traced.guarded .own .shared (pure (s.berkeleyAlgorithm i))

/-- `DefaultTimeService::get_estimated_uncertainty`. -/
def getEstimatedUncertaintyTraced (i : IterationOrder) : Traced OwnMutex Milliseconds :=
  Traced.guarded .own .shared (pure (s.getEstimatedUncertainty i))

/-- `DefaultTimeService::get_sync_quality`. -/
def getSyncQualityTraced (i : IterationOrder) : Traced OwnMutex Float := do
  let uncertainty ← s.getEstimatedUncertaintyTraced i
  return s.syncQuality uncertainty

/-! ## Nodes, configuration and life cycle -/

/-- `DefaultTimeService::start`. -/
def startTraced (config : TimeSyncConfig) : Traced OwnMutex (Result Unit × DefaultTimeService) :=
  Traced.guarded .own .exclusive (pure (s.start config))

/-- `DefaultTimeService::stop`; the threads end while the mutex is locked. -/
def stopTraced : Traced OwnMutex (Result Unit × DefaultTimeService) :=
  Traced.guarded .own .exclusive (pure s.stop)

/-- `DefaultTimeService::~DefaultTimeService`. -/
def destroyTraced : Traced OwnMutex DefaultTimeService :=
  if s.isRunning then do
    let (_, s) ← s.stopTraced
    return s
  else pure s

/-- `DefaultTimeService::add_node`. -/
def addNodeTraced (nodeId : NodeId) : Traced OwnMutex DefaultTimeService :=
  Traced.guarded .own .exclusive (pure (s.addNode nodeId))

/-- `DefaultTimeService::remove_node`. -/
def removeNodeTraced (nodeId : NodeId) : Traced OwnMutex DefaultTimeService :=
  Traced.guarded .own .exclusive (pure (s.removeNode nodeId))

/-- `DefaultTimeService::get_sync_nodes`. -/
def getSyncNodesTraced (i : IterationOrder) : Traced OwnMutex (List NodeId) :=
  Traced.guarded .own .shared (pure (s.getSyncNodes i))

/-- `DefaultTimeService::set_event_handler`. -/
def setEventHandlerTraced (eventHandler : Bool) : Traced OwnMutex DefaultTimeService :=
  Traced.guarded .own .exclusive (pure (s.setEventHandler eventHandler))

/-- `DefaultTimeService::update_config`. -/
def updateConfigTraced (config : TimeSyncConfig) : Traced OwnMutex DefaultTimeService :=
  Traced.guarded .own .exclusive (pure (s.updateConfig config))

/-- `DefaultTimeService::get_config`. -/
def getConfigTraced : Traced OwnMutex TimeSyncConfig := Traced.guarded .own .shared (pure s.config)

/-! ## Synchronization -/

/-- `DefaultTimeService::handle_sync_message`: the handlers of responses and of updates
of offsets lock the mutex once more. -/
def handleSyncMessageTraced (message : TimeSyncMessage) (now updated : PhysicalTimestamp) :
    Traced OwnMutex (Result Unit × DefaultTimeService) :=
  Traced.guarded .own .exclusive
    (match message.type with
    | .timeRequest => pure (.ok (), s)
    | .timeResponse => do
        let (offset, uncertainty) := s.sampleOfResponse message now
        let s ← s.updateOffsetWithSampleTraced message.fromNode offset uncertainty updated
        return (.ok (), s)
    | .offsetUpdate => do
        let s ← s.updateOffsetWithSampleTraced message.fromNode message.estimatedOffset 50 updated
        return (.ok (), s)
    | .syncHeartbeat => pure (.ok (), s)
    | .other => pure (.error ⟨.invalidArgument, "Unknown sync message type"⟩, s))

theorem result_handleSyncMessageTraced (message : TimeSyncMessage)
    (now updated : PhysicalTimestamp) : (s.handleSyncMessageTraced message now updated).result
      = some (s.handleSyncMessage message now updated) := by
  rw [handleSyncMessageTraced, Traced.result_guarded, handleSyncMessage]
  cases message.type <;> rfl

/-- `DefaultTimeService::sync_with_node`. -/
def syncWithNodeTraced (nodeId : NodeId) (readings : SyncReadings) :
    Traced OwnMutex (Result Unit × DefaultTimeService × List TimeSyncEvent) := do
  let s := { s with syncAttempts := s.syncAttempts + 1 }
  match measureOffsetWithNode readings.sendTime readings.responseTime readings.localTime with
  | .error f => return (.error f, { s with syncFailures := s.syncFailures + 1 }, [])
  | .ok offset => do
      let s ← s.updateOffsetWithSampleTraced nodeId offset 50 readings.updated
      let s := { s with syncSuccesses := s.syncSuccesses + 1 }
      return (.ok (), s, s.delivered [.timeSyncCompleted nodeId offset])

/-- The loop over the nodes in `DefaultTimeService::sync_loop`. -/
def syncWithNodesTraced (s : DefaultTimeService) (readings : NodeId → SyncReadings) :
    List NodeId → Traced OwnMutex (DefaultTimeService × List TimeSyncEvent)
  | [] => pure (s, [])
  | nodeId :: nodes => do
      let (_, s, events) ← s.syncWithNodeTraced nodeId (readings nodeId)
      let (s, rest) ← s.syncWithNodesTraced readings nodes
      return (s, events ++ rest)

/-- Take over the median of the offsets, if there are nodes enough. -/
def adjustTraced (i : IterationOrder) (nodes : ℕ) : Traced OwnMutex DefaultTimeService :=
  if s.config.minSamples.toNat ≤ nodes then do
    let berkeleyResult ← s.berkeleyAlgorithmTraced i
    match berkeleyResult with
    | .ok offset => return { s with localOffset := offset }
    | .error _ => return s
  else pure s

/-- A pass of `DefaultTimeService::sync_loop`; each loop over a hash container has an
order of its own. -/
def syncPassTraced (nodes samples drifts : IterationOrder) (readings : NodeId → SyncReadings)
    (clock : NodeId → PhysicalTimestamp) :
    Traced OwnMutex (DefaultTimeService × List TimeSyncEvent) := do
  let found ← s.getSyncNodesTraced nodes
  let (s, synchronized) ← s.syncWithNodesTraced readings found
  let s ← s.adjustTraced samples found.length
  let drifted ← s.detectClockDriftTraced drifts
  let s ← s.cleanupExpiredOffsetsTraced clock
  return (s, synchronized ++ drifted)

/-- `DefaultTimeService::sync_with_ntp` and a pass of `DefaultTimeService::ntp_sync_loop`:
they lock nothing. -/
def syncWithNtpTraced (random : String → ℕ) :
    Traced OwnMutex (Result Unit × DefaultTimeService × List TimeSyncEvent) :=
  pure (s.syncWithNtp random)

end DefaultTimeService

end QcDatabase
