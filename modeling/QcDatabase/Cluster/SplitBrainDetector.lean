/-
# The split-brain detector (`src/cluster/split_brain_detector.cpp`)

`DefaultSplitBrainDetector` keeps the status of the nodes it was told about, a list of
the partitions that it detected, and the set of the isolated nodes.

* `detectNetworkPartitions` counts missed heartbeats and adds a record for every pair of
  connected components (`findConnectedComponents`, a breadth-first search over pairs of
  nodes that both sent a heartbeat lately);
* `updatePartitionStatus` marks the records as resolved whose two sides are connected;
* `calculateQuorum` decides by one of four strategies whether the live nodes are enough.

The functions return the events that they notify a handler of.  Clock readings are
arguments; the search and the update of the records read the clock for every pair.  The
passes of the two threads lock nothing; each is taken as one step.
-/
import Mathlib.Data.Finset.Basic
import QcDatabase.Common.Types
import QcDatabase.Lib.UnorderedMap

open UnorderedMap

namespace QcDatabase

/-! ## Types -/

/-- `SplitBrainStatus`. -/
inductive SplitBrainStatus where
  | healthy
  | suspected
  | confirmed
  | recovering
  | isolated
  deriving DecidableEq, Repr

/-- `QuorumStrategy`. -/
inductive QuorumStrategy where
  | majority
  | staticQuorum
  | dynamicQuorum
  | witnessBased
  deriving DecidableEq, Repr

/-- `NetworkPartition`; there is no duration before it is resolved. -/
structure NetworkPartition where
  partitionA : List NodeId
  partitionB : List NodeId
  detectedAt : TimePoint
  duration : Option Milliseconds
  resolved : Bool
  deriving DecidableEq, Repr

/-- `QuorumDecision`. -/
structure QuorumDecision where
  hasQuorum : Bool
  activeNodes : List NodeId
  isolatedNodes : List NodeId
  strategyUsed : QuorumStrategy
  reason : String
  deriving DecidableEq, Repr

/-- `SplitBrainConfig`. -/
structure SplitBrainConfig where
  heartbeatTimeout : Milliseconds
  splitDetectionTimeout : Milliseconds
  maxMissedHeartbeats : UInt32
  quorumStrategy : QuorumStrategy
  minQuorumSize : ℕ
  witnessNodes : List NodeId
  autoRecoveryEnabled : Bool
  recoveryTimeout : Milliseconds
  maxRecoveryAttempts : UInt32
  deriving DecidableEq, Repr

/-- `SplitBrainConfig::SplitBrainConfig`. -/
def SplitBrainConfig.default : SplitBrainConfig where
  heartbeatTimeout := 1000
  splitDetectionTimeout := 5000
  maxMissedHeartbeats := 3
  quorumStrategy := .majority
  minQuorumSize := 2
  witnessNodes := []
  autoRecoveryEnabled := true
  recoveryTimeout := 30000
  maxRecoveryAttempts := 3

/-- The events of `SplitBrainEventHandler`. -/
inductive SplitBrainEvent where
  | splitBrainDetected (partition : NetworkPartition)
  | splitBrainResolved (partition : NetworkPartition)
  | nodeIsolated (nodeId : NodeId) (reason : String)
  | quorumLost
  | quorumRestored
  deriving DecidableEq, Repr

/-- `DefaultSplitBrainDetector::NodeStatus`. -/
structure NodeStatus where
  nodeId : NodeId
  isAlive : Bool
  lastSeen : TimePoint
  lastHeartbeat : TimePoint
  missedHeartbeats : UInt32
  isIsolated : Bool
  isolationReason : String
  deriving DecidableEq, Repr

/-- `NodeStatus::NodeStatus`. -/
def NodeStatus.create (id : NodeId) : NodeStatus := ⟨id, false, 0, 0, 0, false, ""⟩

/-- The node is alive and not isolated. -/
def NodeStatus.isLive (status : NodeStatus) : Bool := status.isAlive && !status.isIsolated

/-- `DefaultSplitBrainDetector`; `eventHandler` says whether there is one. -/
structure DefaultSplitBrainDetector where
  config : SplitBrainConfig
  eventHandler : Bool
  nodes : UnorderedMap NodeId NodeStatus
  detectedPartitions : List NetworkPartition
  isolatedNodes : Finset NodeId
  status : SplitBrainStatus
  isRunning : Bool
  stopThreads : Bool

namespace DefaultSplitBrainDetector

/-- `DefaultSplitBrainDetector::DefaultSplitBrainDetector`. -/
def create : DefaultSplitBrainDetector where
  config := SplitBrainConfig.default
  eventHandler := false
  nodes := ∅
  detectedPartitions := []
  isolatedNodes := ∅
  status := .healthy
  isRunning := false
  stopThreads := false

/-- What reaches the handler of the events that are notified. -/
def delivered (d : DefaultSplitBrainDetector) (events : List SplitBrainEvent) :
    List SplitBrainEvent :=
  if d.eventHandler then events else []

/-- `DefaultSplitBrainDetector::start`. -/
def start (d : DefaultSplitBrainDetector) (config : SplitBrainConfig) :
    Result Unit × DefaultSplitBrainDetector :=
  if d.isRunning then (.ok (), d)
  else (.ok (), { d with
    config := config, status := .healthy, stopThreads := false, isRunning := true })

/-- `DefaultSplitBrainDetector::stop`, once the threads have ended. -/
def stop (d : DefaultSplitBrainDetector) : Result Unit × DefaultSplitBrainDetector :=
  if !d.isRunning then (.ok (), d)
  else (.ok (), { d with stopThreads := true, isRunning := false })

/-! ## Nodes -/

/-- `DefaultSplitBrainDetector::add_node`. -/
def addNode (d : DefaultSplitBrainDetector) (nodeId : NodeId) : DefaultSplitBrainDetector :=
  -- an entry that is there is overwritten; `isolated_nodes_` is not looked at
  { d with nodes := d.nodes.insert nodeId (NodeStatus.create nodeId) }

/-- `DefaultSplitBrainDetector::remove_node`. -/
def removeNode (d : DefaultSplitBrainDetector) (nodeId : NodeId) : DefaultSplitBrainDetector :=
  { d with nodes := d.nodes.erase nodeId, isolatedNodes := d.isolatedNodes.erase nodeId }

/-- Change the status of a node that is there. -/
def updateNode (d : DefaultSplitBrainDetector) (nodeId : NodeId) (f : NodeStatus → NodeStatus) :
    DefaultSplitBrainDetector :=
  match d.nodes.lookup nodeId with
  | none => d
  | some status => { d with nodes := d.nodes.insert nodeId (f status) }

/-- `DefaultSplitBrainDetector::update_node_status`. -/
def updateNodeStatus (d : DefaultSplitBrainDetector) (nodeId : NodeId) (isAlive : Bool)
    (lastSeen : TimePoint) : DefaultSplitBrainDetector :=
  d.updateNode nodeId fun status =>
    { status with
      isAlive := isAlive
      lastSeen := lastSeen
      missedHeartbeats := if isAlive then 0 else status.missedHeartbeats }

/-- `DefaultSplitBrainDetector::process_heartbeat`; the receiver is not looked at. -/
def processHeartbeat (d : DefaultSplitBrainDetector) (fromNode _toNode : NodeId)
    (timestamp : TimePoint) : DefaultSplitBrainDetector :=
  d.updateNode fromNode fun status =>
    { status with lastHeartbeat := timestamp, isAlive := true, missedHeartbeats := 0 }

/-- `DefaultSplitBrainDetector::is_node_isolated`. -/
def isNodeIsolated (d : DefaultSplitBrainDetector) (nodeId : NodeId) : Bool :=
  decide (nodeId ∈ d.isolatedNodes)

/-- `DefaultSplitBrainDetector::isolate_node`. -/
def isolateNode (d : DefaultSplitBrainDetector) (nodeId : NodeId) (reason : String) :
    Result Unit × DefaultSplitBrainDetector × List SplitBrainEvent :=
  match d.nodes.lookup nodeId with
  | none => (.ok (), d, [])
  | some status =>
      (.ok (), { d with
        nodes := d.nodes.insert nodeId { status with isIsolated := true, isolationReason := reason }
        isolatedNodes := insert nodeId d.isolatedNodes }, [.nodeIsolated nodeId reason])

/-- `DefaultSplitBrainDetector::restore_node`. -/
def restoreNode (d : DefaultSplitBrainDetector) (nodeId : NodeId) :
    Result Unit × DefaultSplitBrainDetector :=
  match d.nodes.lookup nodeId with
  | none => (.ok (), d)
  | some status =>
      (.ok (), { d with
        nodes := d.nodes.insert nodeId { status with isIsolated := false, isolationReason := "" }
        isolatedNodes := d.isolatedNodes.erase nodeId })

/-- `DefaultSplitBrainDetector::set_event_handler`. -/
def setEventHandler (d : DefaultSplitBrainDetector) (eventHandler : Bool) :
    DefaultSplitBrainDetector :=
  { d with eventHandler := eventHandler }

/-- `DefaultSplitBrainDetector::update_config`. -/
def updateConfig (d : DefaultSplitBrainDetector) (config : SplitBrainConfig) :
    DefaultSplitBrainDetector :=
  { d with config := config }

/-! ## Quorum -/

/-- The ids of the nodes with a status like this, in the order in which the map is
iterated. -/
def nodesWith (d : DefaultSplitBrainDetector) (i : IterationOrder) (p : NodeStatus → Bool) :
    List NodeId :=
  ((i.order d.nodes.entries).filter fun entry => p entry.2).map Sigma.fst

/-- `DefaultSplitBrainDetector::majority_quorum`. -/
def majorityQuorum (d : DefaultSplitBrainDetector) (i : IterationOrder) : QuorumDecision :=
  let aliveNodes := d.nodesWith i NodeStatus.isLive
  let deadNodes := d.nodesWith i fun status => !status.isLive
  let totalNodes := d.nodes.entries.length
  let requiredQuorum := totalNodes / 2 + 1
  let hasQuorum := decide (requiredQuorum ≤ aliveNodes.length)
  { hasQuorum := hasQuorum
    activeNodes := aliveNodes
    isolatedNodes := deadNodes
    strategyUsed := .majority
    reason :=
      if hasQuorum then "Majority quorum achieved with " ++ toString aliveNodes.length ++ "/"
        ++ toString totalNodes ++ " nodes"
      else "Majority quorum lost: only " ++ toString aliveNodes.length ++ "/"
        ++ toString totalNodes ++ " nodes alive" }

/-- `DefaultSplitBrainDetector::static_quorum`. -/
def staticQuorum (d : DefaultSplitBrainDetector) (i : IterationOrder) : QuorumDecision :=
  let aliveNodes := d.nodesWith i NodeStatus.isLive
  { hasQuorum := decide (d.config.minQuorumSize ≤ aliveNodes.length)
    activeNodes := aliveNodes
    isolatedNodes := []
    strategyUsed := .staticQuorum
    reason := "Static quorum: " ++ toString aliveNodes.length ++ " >= "
      ++ toString d.config.minQuorumSize }

/-- `DefaultSplitBrainDetector::dynamic_quorum`. -/
def dynamicQuorum (d : DefaultSplitBrainDetector) (i : IterationOrder) : QuorumDecision :=
  let aliveNodes := d.nodesWith i NodeStatus.isLive
  let dynamicQuorumSize := max d.config.minQuorumSize ((aliveNodes.length + 1) / 2)
  { hasQuorum := decide (dynamicQuorumSize ≤ aliveNodes.length)
    activeNodes := aliveNodes
    isolatedNodes := []
    strategyUsed := .dynamicQuorum
    reason := "Dynamic quorum: " ++ toString aliveNodes.length ++ " >= "
      ++ toString dynamicQuorumSize }

/-- `DefaultSplitBrainDetector::witness_based_quorum`. -/
def witnessBasedQuorum (d : DefaultSplitBrainDetector) (i : IterationOrder) : QuorumDecision :=
  let aliveNodes := d.nodesWith i NodeStatus.isLive
  let aliveWitnesses := aliveNodes.filter (· ∈ d.config.witnessNodes)
  { hasQuorum := !aliveWitnesses.isEmpty && decide (d.config.minQuorumSize ≤ aliveNodes.length)
    activeNodes := aliveNodes
    isolatedNodes := []
    strategyUsed := .witnessBased
    reason := "Witness-based quorum: " ++ toString aliveWitnesses.length ++ " witnesses, "
      ++ toString aliveNodes.length ++ " total nodes" }

/-- `DefaultSplitBrainDetector::calculate_quorum`; a value that is none of the four
strategies is treated like the first. -/
def calculateQuorum (d : DefaultSplitBrainDetector) (i : IterationOrder) : QuorumDecision :=
  match d.config.quorumStrategy with
  | .majority => d.majorityQuorum i
  | .staticQuorum => d.staticQuorum i
  | .dynamicQuorum => d.dynamicQuorum i
  | .witnessBased => d.witnessBasedQuorum i

/-- `DefaultSplitBrainDetector::check_quorum`. -/
def checkQuorum (d : DefaultSplitBrainDetector) (i : IterationOrder) : QuorumDecision :=
  d.calculateQuorum i

/-- `DefaultSplitBrainDetector::has_quorum`. -/
def hasQuorum (d : DefaultSplitBrainDetector) (i : IterationOrder) : Bool :=
  (d.checkQuorum i).hasQuorum

/-! ## Connected components -/

/-- `DefaultSplitBrainDetector::are_nodes_connected`, at clock reading `now`. -/
def areNodesConnected (d : DefaultSplitBrainDetector) (node1 node2 : NodeId) (now : TimePoint) :
    Bool :=
  match d.nodes.lookup node1, d.nodes.lookup node2 with
  | some status1, some status2 =>
      let heartbeatThreshold := d.config.heartbeatTimeout * 2 * nanosPerMilli
      decide (now - status1.lastHeartbeat < heartbeatThreshold)
        && decide (now - status2.lastHeartbeat < heartbeatThreshold)
  | _, _ => false

/-- The inner loop of `find_connected_components`: the nodes that are found from `current`.
Ids are distinct, so what is found does not bear on the rest of the loop. -/
def foundFrom (d : DefaultSplitBrainDetector) (i : IterationOrder)
    (clock : NodeId → NodeId → TimePoint) (visited : List NodeId) (current : NodeId) : List NodeId :=
  ((i.order d.nodes.entries).filter fun other => decide (other.1 ∉ visited) && other.2.isAlive
    && d.areNodesConnected current other.1 (clock current other.1)).map Sigma.fst

/-- The `while` loop of `find_connected_components`: the component and the visited nodes. -/
def searchComponent (d : DefaultSplitBrainDetector) (i : IterationOrder)
    (clock : NodeId → NodeId → TimePoint) :
    ℕ → List NodeId → List NodeId → List NodeId → List NodeId × List NodeId
  | 0, visited, _, component => (component, visited)
  | _ + 1, visited, [], component => (component, visited)
  | fuel + 1, visited, current :: queue, component =>
      let found := d.foundFrom i clock visited current
      d.searchComponent i clock fuel (visited ++ found) (queue ++ found) (component ++ [current])

/-- How many nodes are not visited. -/
def unvisited (d : DefaultSplitBrainDetector) (visited : List NodeId) : ℕ :=
  (d.nodes.keys.filter (· ∉ visited)).length

/-- The outer loop of `find_connected_components`. -/
def componentsFrom (d : DefaultSplitBrainDetector) (i : IterationOrder)
    (clock : NodeId → NodeId → TimePoint) :
    List (Sigma fun _ : NodeId => NodeStatus) → List NodeId → List (List NodeId)
  | [], _ => []
  | ⟨nodeId, status⟩ :: nodes, visited =>
      if nodeId ∉ visited ∧ status.isAlive then
        -- every round visits one node of the queue
        let (component, visited) :=
          d.searchComponent i clock (d.nodes.entries.length + 1) (visited ++ [nodeId]) [nodeId] []
        component :: d.componentsFrom i clock nodes visited
      else d.componentsFrom i clock nodes visited

/-- `DefaultSplitBrainDetector::find_connected_components`. -/
def findConnectedComponents (d : DefaultSplitBrainDetector) (i : IterationOrder)
    (clock : NodeId → NodeId → TimePoint) : List (List NodeId) :=
  d.componentsFrom i clock (i.order d.nodes.entries) []

/-! ## Detection -/

/-- The heartbeat check of `detect_network_partitions` for one node. -/
def checkHeartbeat (config : SplitBrainConfig) (now : TimePoint) (status : NodeStatus) :
    NodeStatus :=
  if !status.isIsolated
      && decide (config.heartbeatTimeout * nanosPerMilli < now - status.lastHeartbeat) then
    let missed := status.missedHeartbeats + 1
    { status with
      missedHeartbeats := missed
      isAlive := status.isAlive && !decide (config.maxMissedHeartbeats ≤ missed) }
  else status

/-- The pairs of elements at positions `i < j`, in the order of two nested loops. -/
def pairs {α : Type} : List α → List (α × α)
  | [] => []
  | x :: xs => xs.map (fun y => (x, y)) ++ pairs xs

/-- `DefaultSplitBrainDetector::detect_network_partitions`. -/
def detectNetworkPartitions (d : DefaultSplitBrainDetector) (i : IterationOrder) (now : TimePoint)
    (clock : NodeId → NodeId → TimePoint) : DefaultSplitBrainDetector × List SplitBrainEvent :=
  let d := { d with nodes := mapValues (checkHeartbeat d.config now) d.nodes }
  let partitions := (pairs (d.findConnectedComponents i clock)).map
    fun (a, b) => (⟨a, b, now, none, false⟩ : NetworkPartition)
  ({ d with detectedPartitions := d.detectedPartitions ++ partitions },
    partitions.map .splitBrainDetected)

/-- `DefaultSplitBrainDetector::detect_split_brain`. -/
def detectSplitBrain (d : DefaultSplitBrainDetector) : Bool := !d.detectedPartitions.isEmpty

/-! ## Recovery -/

/-- Some pair of nodes across the partition is connected.  What `update_partition_status`
checks inside either side has no effect. -/
def interPartitionConnected (d : DefaultSplitBrainDetector) (clock : NodeId → NodeId → TimePoint)
    (partition : NetworkPartition) : Bool :=
  partition.partitionA.any fun a => partition.partitionB.any fun b =>
    d.areNodesConnected a b (clock a b)

/-- The body of the loop of `update_partition_status`. -/
def updatePartition (d : DefaultSplitBrainDetector) (now : TimePoint)
    (clock : NodeId → NodeId → TimePoint) (partition : NetworkPartition) : NetworkPartition :=
  if !partition.resolved && d.interPartitionConnected clock partition then
    { partition with
      resolved := true, duration := some (toMilliseconds (now - partition.detectedAt)) }
  else partition

/-- `DefaultSplitBrainDetector::update_partition_status`; `clock k` are the readings while
the `k`-th record is checked. -/
def updatePartitionStatus (d : DefaultSplitBrainDetector) (now : TimePoint)
    (clock : ℕ → NodeId → NodeId → TimePoint) : DefaultSplitBrainDetector × List SplitBrainEvent :=
  let updated := d.detectedPartitions.mapIdx fun k partition =>
    d.updatePartition now (clock k) partition
  ({ d with detectedPartitions := updated },
    ((d.detectedPartitions.zip updated).filter fun p => !p.1.resolved && p.2.resolved).map
      fun p => .splitBrainResolved p.2)

/-- `DefaultSplitBrainDetector::force_merge_partitions`. -/
def forceMergePartitions (d : DefaultSplitBrainDetector) :
    Result Unit × DefaultSplitBrainDetector × List SplitBrainEvent :=
  let merged := d.detectedPartitions.map fun partition => { partition with resolved := true }
  (.ok (), { d with
    detectedPartitions := merged.filter fun partition => !partition.resolved
    status := .healthy },
    (d.detectedPartitions.filter fun partition => !partition.resolved).map
      fun partition => .splitBrainResolved { partition with resolved := true })

end DefaultSplitBrainDetector

end QcDatabase
