/-
# The offsets of the time service (`src/time/time_sync.cpp`)

Beside its clock `DefaultTimeService` keeps a table of the offsets of other nodes, with
the samples that were taken and a confidence in them, and derives its own offset from
the median of those (`berkeleyAlgorithm`) or from an NTP server.  Samples come from
messages and from measurements; both are simulated in the source as far as the network
is concerned.

These are the functions without what they lock; those that call other functions that
lock are in `TimeServiceTraces`.  Offsets are smoothed and judged in floating point.
-/
import Mathlib.Algebra.Order.Group.Unbundled.Abs
import Mathlib.Algebra.Order.Ring.Unbundled.Rat
import Mathlib.Data.List.Sort
import QcDatabase.Lib.MachineIntegers
import QcDatabase.Time.HybridClock

open UnorderedMap

namespace QcDatabase

/-! ## Messages and events -/

/-- `TimeSyncMessageType`. -/
inductive TimeSyncMessageType where
  | timeRequest
  | timeResponse
  | offsetUpdate
  | syncHeartbeat
  /-- a value that is none of the four -/
  | other
  deriving DecidableEq, Repr

/-- `TimeSyncMessage`. -/
structure TimeSyncMessage where
  type : TimeSyncMessageType
  fromNode : NodeId
  toNode : NodeId
  sendTime : PhysicalTimestamp
  receiveTime : PhysicalTimestamp
  responseTime : PhysicalTimestamp
  estimatedOffset : ClockOffset
  roundTripTime : Milliseconds
  deriving DecidableEq, Repr

/-- The events of `TimeSyncEventHandler`. -/
inductive TimeSyncEvent where
  | clockDriftDetected (nodeId : NodeId) (drift : ClockOffset)
  | timeSyncCompleted (nodeId : NodeId) (offset : ClockOffset)
  | timeSyncFailed (nodeId : NodeId) (reason : String)
  | ntpSyncCompleted (offset : ClockOffset)
  deriving DecidableEq, Repr

/-- `ClockOffsetInfo::is_expired`, at clock reading `now`. -/
def ClockOffsetInfo.isExpired (info : ClockOffsetInfo) (maxAge : Milliseconds)
    (now : PhysicalTimestamp) : Bool :=
  decide (maxAge * nanosPerMilli < now - info.lastSync)

namespace DefaultTimeService

/-- What reaches the handler of the events that are notified. -/
def delivered (s : DefaultTimeService) (events : List TimeSyncEvent) : List TimeSyncEvent :=
  if s.eventHandler then events else []

/-! ## Life cycle, nodes and configuration -/

/-- `DefaultTimeService::start`. -/
def start (s : DefaultTimeService) (config : TimeSyncConfig) : Result Unit × DefaultTimeService :=
  if s.isRunning then (.ok (), s)
  else (.ok (), { s with config := config, stopThreads := false, isRunning := true })

/-- `DefaultTimeService::stop`, once the threads have ended. -/
def stop (s : DefaultTimeService) : Result Unit × DefaultTimeService :=
  if !s.isRunning then (.ok (), s)
  else (.ok (), { s with stopThreads := true, isRunning := false })

/-- `DefaultTimeService::add_node`. -/
def addNode (s : DefaultTimeService) (nodeId : NodeId) : DefaultTimeService :=
  { s with syncNodes := s.syncNodes.insert nodeId }

/-- `DefaultTimeService::remove_node`. -/
def removeNode (s : DefaultTimeService) (nodeId : NodeId) : DefaultTimeService :=
  { s with syncNodes := s.syncNodes.erase nodeId, nodeOffsets := s.nodeOffsets.erase nodeId }

/-- `DefaultTimeService::get_sync_nodes`. -/
def getSyncNodes (s : DefaultTimeService) (i : IterationOrder) : List NodeId := i.order s.syncNodes

/-- `DefaultTimeService::set_event_handler`. -/
def setEventHandler (s : DefaultTimeService) (eventHandler : Bool) : DefaultTimeService :=
  { s with eventHandler := eventHandler }

/-- `DefaultTimeService::update_config`. -/
def updateConfig (s : DefaultTimeService) (config : TimeSyncConfig) : DefaultTimeService :=
  { s with config := config }

/-! ## Offsets -/

/-- `DefaultTimeService::get_offset`. -/
def getOffset (s : DefaultTimeService) (nodeId : NodeId) : ClockOffset :=
  match s.nodeOffsets.lookup nodeId with
  | some info => info.offset
  | none => 0

/-- `DefaultTimeService::set_offset`; the confidence stays as it is, or is 0. -/
def setOffset (s : DefaultTimeService) (nodeId : NodeId) (offset : ClockOffset)
    (now : PhysicalTimestamp) : Result Unit × DefaultTimeService :=
  let info : ClockOffsetInfo :=
    match s.nodeOffsets.lookup nodeId with
    | some info =>
        { info with offset := offset, lastSync := now, syncCount := info.syncCount + 1 }
    | none => ⟨nodeId, offset, 0, now, 1, 0⟩
  (.ok (), { s with nodeOffsets := s.nodeOffsets.insert nodeId info })

/-- `DefaultTimeService::get_all_offsets`. -/
def getAllOffsets (s : DefaultTimeService) (i : IterationOrder) : List ClockOffsetInfo :=
  (i.order s.nodeOffsets.entries).map fun entry => entry.2

/-- `DefaultTimeService::filter_offset`. -/
def filterOffset (s : DefaultTimeService) (current newSample : ClockOffset) : ClockOffset :=
  let alpha := s.config.offsetFilterAlpha
  let filteredMs := (1.0 - alpha) * Float.ofInt current + alpha * Float.ofInt newSample
  filteredMs.toInt64.toInt

/-- `DefaultTimeService::update_offset_with_sample`. -/
def updateOffsetWithSample (s : DefaultTimeService) (nodeId : NodeId) (sample : ClockOffset)
    (uncertainty : Milliseconds) (now : PhysicalTimestamp) : DefaultTimeService :=
  let info : ClockOffsetInfo :=
    match s.nodeOffsets.lookup nodeId with
    | some info =>
        { info with
          offset := s.filterOffset info.offset sample
          uncertainty := uncertainty
          lastSync := now
          syncCount := info.syncCount + 1
          confidence := min 1 ((info.syncCount + 1).toNat / 10) }
    | none => ⟨nodeId, sample, uncertainty, now, 1, 1 / 10⟩
  { s with nodeOffsets := s.nodeOffsets.insert nodeId info }

/-- `DefaultTimeService::cleanup_expired_offsets`; the clock is read for every entry. -/
def cleanupExpiredOffsets (s : DefaultTimeService) (clock : NodeId → PhysicalTimestamp) :
    DefaultTimeService :=
  let kept (nodeId : NodeId) (info : ClockOffsetInfo) : Bool :=
    !info.isExpired s.config.maxOffsetAge (clock nodeId)
  { s with nodeOffsets := filterEntries kept s.nodeOffsets }

/-- The events that `DefaultTimeService::detect_clock_drift` notifies. -/
def detectClockDrift (s : DefaultTimeService) (i : IterationOrder) : List TimeSyncEvent :=
  s.delivered (((i.order s.nodeOffsets.entries).filter
    fun entry => decide (s.config.maxClockDrift < |entry.2.offset|)).map
      fun entry => .clockDriftDetected entry.1 entry.2.offset)

/-- The element in the middle of a sorted list that is not empty, or the mean of the two
in the middle, whose sum may overflow. -/
def medianOfSorted (offsets : List ClockOffset) : ClockOffset :=
  if offsets.length % 2 = 0 then
    let mid1 := offsets.getD (offsets.length / 2 - 1) 0
    let mid2 := offsets.getD (offsets.length / 2) 0
    (IntType.int64.wrap (mid1 + mid2)).tdiv 2
  else offsets.getD (offsets.length / 2) 0

/-- `DefaultTimeService::berkeley_algorithm`. -/
def berkeleyAlgorithm (s : DefaultTimeService) (i : IterationOrder) : Result ClockOffset :=
  if s.nodeOffsets.entries.length < s.config.minSamples.toNat then
    .error ⟨.insufficientData, "Not enough offset samples"⟩
  else
    let offsets := ((i.order s.nodeOffsets.entries).filter
      fun entry => decide (1 / 2 < entry.2.confidence)).map fun entry => entry.2.offset
    if offsets.isEmpty then .error ⟨.insufficientData, "No high-confidence offset samples"⟩
    else .ok (medianOfSorted (offsets.mergeSort (· ≤ ·)))

/-! ## Quality -/

/-- `DefaultTimeService::get_estimated_uncertainty`: the standard deviation of the offsets. -/
def getEstimatedUncertainty (s : DefaultTimeService) (i : IterationOrder) : Milliseconds :=
  if s.nodeOffsets.entries.isEmpty then 1000
  else
    let offsets := (i.order s.nodeOffsets.entries).map fun entry => Float.ofInt entry.2.offset
    if offsets.length < 2 then 100
    else
      let mean := offsets.foldl (· + ·) 0.0 / Float.ofNat offsets.length
      let sum := offsets.foldl (fun sum offset => sum + (offset - mean) * (offset - mean)) 0.0
      let variance := sum / Float.ofNat (offsets.length - 1)
      variance.sqrt.toInt64.toInt

/-- `DefaultTimeService::get_sync_quality`, out of the uncertainty. -/
def syncQuality (s : DefaultTimeService) (uncertainty : Milliseconds) : Float :=
  if s.syncAttempts = 0 then 0.0
  else
    let successRate := s.syncSuccesses.toFloat / s.syncAttempts.toFloat
    let uncertaintyFactor := 1.0 / (1.0 + Float.ofInt uncertainty / 100.0)
    successRate * uncertaintyFactor

/-! ## Measurements -/

/-- `DefaultTimeService::measure_offset_with_node`: the network and the answer of the node
are simulated. -/
def measureOffsetWithNode (sendTime responseTime localTime : PhysicalTimestamp) :
    Result ClockOffset :=
  let receiveTime := sendTime + 5 * nanosPerMilli
  let rtt := responseTime - sendTime
  let estimatedNetworkDelay := rtt.tdiv 2
  let remoteTime := receiveTime + estimatedNetworkDelay
  .ok (toMilliseconds (remoteTime - localTime))

/-- `DefaultTimeService::query_ntp_server`: a random number stands in for the server. -/
def queryNtpServer (_server : String) (random : ℕ) : Result ClockOffset :=
  .ok ((random % 100 : ℕ) - 50)

/-- `DefaultTimeService::sync_with_ntp_server`. -/
def syncWithNtpServer (s : DefaultTimeService) (server : String) (random : ℕ) :
    Result ClockOffset × DefaultTimeService :=
  match queryNtpServer server random with
  | .error f => (.error f, s)
  | .ok offset => (.ok offset, { s with localOffset := s.filterOffset s.localOffset offset })

/-- The loop of `sync_with_ntp` over the servers. -/
def syncWithNtpServers (s : DefaultTimeService) (random : String → ℕ) :
    List String → Result Unit × DefaultTimeService × List TimeSyncEvent
  | [] => (.error ⟨.networkError, "Failed to sync with any NTP server"⟩, s, [])
  | server :: servers =>
      match s.syncWithNtpServer server (random server) with
      | (.ok offset, s) => (.ok (), s, s.delivered [.ntpSyncCompleted offset])
      | (.error _, s) => s.syncWithNtpServers random servers

/-- `DefaultTimeService::sync_with_ntp`. -/
def syncWithNtp (s : DefaultTimeService) (random : String → ℕ) :
    Result Unit × DefaultTimeService × List TimeSyncEvent :=
  if !s.config.enableNtpSync || s.config.ntpServers.isEmpty then
    (.error ⟨.invalidArgument, "NTP sync is not enabled or no servers configured"⟩, s, [])
  else s.syncWithNtpServers random s.config.ntpServers

/-! ## Messages -/

/-- The response of `DefaultTimeService::handle_time_request`, which is not sent; its
estimated offset is not set. -/
def handleTimeRequest (s : DefaultTimeService) (message : TimeSyncMessage)
    (received responded : PhysicalTimestamp) (uninitialized : ClockOffset) : TimeSyncMessage where
  type := .timeResponse
  fromNode := "local".toUTF8.toList
  toNode := message.fromNode
  sendTime := message.sendTime
  receiveTime := s.nowSynchronized received
  responseTime := s.nowSynchronized responded
  estimatedOffset := uninitialized
  roundTripTime := 0

/-- The offset that `DefaultTimeService::handle_time_response` computes, at clock reading
`now`, and its uncertainty. -/
def sampleOfResponse (s : DefaultTimeService) (message : TimeSyncMessage)
    (now : PhysicalTimestamp) : ClockOffset × Milliseconds :=
  let rtt := message.responseTime - message.sendTime
  let estimatedDelay := rtt.tdiv 2
  let remoteTime := message.receiveTime + estimatedDelay
  let localTime := s.nowSynchronized now
  (toMilliseconds (remoteTime - localTime), toMilliseconds (rtt.tdiv 4))

/-- `DefaultTimeService::handle_time_response`; the clock is read again by
`update_offset_with_sample`. -/
def handleTimeResponse (s : DefaultTimeService) (message : TimeSyncMessage)
    (now updated : PhysicalTimestamp) : DefaultTimeService :=
  let (offset, uncertainty) := s.sampleOfResponse message now
  s.updateOffsetWithSample message.fromNode offset uncertainty updated

/-- `DefaultTimeService::handle_offset_update`. -/
def handleOffsetUpdate (s : DefaultTimeService) (message : TimeSyncMessage)
    (updated : PhysicalTimestamp) : DefaultTimeService :=
  s.updateOffsetWithSample message.fromNode message.estimatedOffset 50 updated

/-- `DefaultTimeService::handle_sync_message`; the locks of the functions that it calls
are taken as granted. -/
def handleSyncMessage (s : DefaultTimeService) (message : TimeSyncMessage)
    (now updated : PhysicalTimestamp) : Result Unit × DefaultTimeService :=
  match message.type with
  | .timeRequest => (.ok (), s)
  | .timeResponse => (.ok (), s.handleTimeResponse message now updated)
  | .offsetUpdate => (.ok (), s.handleOffsetUpdate message updated)
  | .syncHeartbeat => (.ok (), s)
  | .other => (.error ⟨.invalidArgument, "Unknown sync message type"⟩, s)

end DefaultTimeService

end QcDatabase
