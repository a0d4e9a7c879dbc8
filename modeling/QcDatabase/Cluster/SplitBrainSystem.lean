/-
# Runs of a split-brain detector

The public operations of a detector and the steps of its two threads, in any order.

* A pass of `detection_loop` counts the heartbeats and adds records (`detect`), looks at
  the records and at the quorum (`decide`), and either confirms the split brain or isolates
  the nodes of the decision one by one, each under the lock (`isolateNext`).
* A pass of `recovery_loop` begins when the status is CONFIRMED (`beginRecovery`); after
  the recovery timeout it updates the records (`updateRecords`) and then looks whether all
  are resolved (`conclude`).

An action that the stage of its thread does not allow changes nothing.  Events are those
that are notified, whether there is a handler or not.
-/
import QcDatabase.Cluster.SplitBrainDetector
import QcDatabase.Lib.StepRuns

open StepRun

namespace QcDatabase

/-- Where the detection thread is. -/
inductive DetectionStage where
  | idle
  | detected
  | isolating (nodes : List NodeId)
  deriving DecidableEq, Repr

/-- Where the recovery thread is. -/
inductive RecoveryStage where
  | idle
  | waiting
  | updated
  deriving DecidableEq, Repr

/-- A detector and the places of its threads. -/
structure SplitBrainSystem where
  detector : DefaultSplitBrainDetector
  detection : DetectionStage
  recovery : RecoveryStage

/-- The calls of a user and the steps of the threads, with the clock readings that they
take and the orders in which they iterate the map of nodes. -/
inductive SplitBrainAction where
  | start (config : SplitBrainConfig)
  | stop
  | addNode (nodeId : NodeId)
  | removeNode (nodeId : NodeId)
  | updateNodeStatus (nodeId : NodeId) (isAlive : Bool) (lastSeen : TimePoint)
  | processHeartbeat (fromNode toNode : NodeId) (timestamp : TimePoint)
  | isolateNode (nodeId : NodeId) (reason : String)
  | restoreNode (nodeId : NodeId)
  | forceMergePartitions
  | setEventHandler (eventHandler : Bool)
  | updateConfig (config : SplitBrainConfig)
  | detect (i : IterationOrder) (now : TimePoint) (clock : NodeId → NodeId → TimePoint)
  | decide (i : IterationOrder)
  | isolateNext
  | beginRecovery
  | updateRecords (now : TimePoint) (clock : ℕ → NodeId → NodeId → TimePoint)
  | conclude

namespace SplitBrainSystem

/-- A new detector. -/
def initial : SplitBrainSystem := ⟨.create, .idle, .idle⟩

variable (s : SplitBrainSystem)

/-- A call that works on the detector alone. -/
def call (d : DefaultSplitBrainDetector) : SplitBrainSystem × List SplitBrainEvent :=
  ({ s with detector := d }, [])

/-! ## The detection thread -/

/-- `detect_network_partitions` in `DefaultSplitBrainDetector::detection_loop`. -/
def detect (i : IterationOrder) (now : TimePoint) (clock : NodeId → NodeId → TimePoint) :
    SplitBrainSystem × List SplitBrainEvent :=
  if s.detector.isRunning ∧ s.detection = .idle then
    let (d, events) := s.detector.detectNetworkPartitions i now clock
    ({ s with detector := d, detection := .detected }, events)
  else (s, [])

/-- `detect_split_brain` and `calculate_quorum` in
`DefaultSplitBrainDetector::detection_loop`. -/
def decide (i : IterationOrder) : SplitBrainSystem × List SplitBrainEvent :=
  if s.detection = .detected then
    if s.detector.detectSplitBrain then
      let decision := s.detector.calculateQuorum i
      if !decision.hasQuorum then
        ({ s with detector := { s.detector with status := .confirmed }, detection := .idle },
          [.quorumLost])
      else ({ s with detection := .isolating decision.isolatedNodes }, [])
    else ({ s with detection := .idle }, [])
  else (s, [])

/-- A round of the loop over `decision.isolated_nodes` in
`DefaultSplitBrainDetector::detection_loop`. -/
def isolateNext : SplitBrainSystem × List SplitBrainEvent :=
  match s.detection with
  | .isolating (node :: nodes) =>
      let (_, d, events) := s.detector.isolateNode node "Split brain - minority partition"
      ({ s with detector := d, detection := .isolating nodes }, events)
  | .isolating [] => ({ s with detection := .idle }, [])
  | .idle => (s, [])
  | .detected => (s, [])

/-! ## The recovery thread -/

/-- The start of a pass of `DefaultSplitBrainDetector::recovery_loop`. -/
def beginRecovery : SplitBrainSystem × List SplitBrainEvent :=
  if s.detector.isRunning ∧ s.recovery = .idle ∧ s.detector.config.autoRecoveryEnabled
      ∧ s.detector.status = .confirmed then
    ({ s with detector := { s.detector with status := .recovering }, recovery := .waiting }, [])
  else (s, [])

/-- `update_partition_status` in `DefaultSplitBrainDetector::recovery_loop`. -/
def updateRecords (now : TimePoint) (clock : ℕ → NodeId → NodeId → TimePoint) :
    SplitBrainSystem × List SplitBrainEvent :=
  if s.recovery = .waiting then
    let (d, events) := s.detector.updatePartitionStatus now clock
    ({ s with detector := d, recovery := .updated }, events)
  else (s, [])

/-- The end of a pass of `DefaultSplitBrainDetector::recovery_loop`. -/
def conclude : SplitBrainSystem × List SplitBrainEvent :=
  if s.recovery = .updated then
    if s.detector.detectedPartitions.all fun partition => partition.resolved then
      ({ s with detector := { s.detector with status := .healthy }, recovery := .idle },
        [.quorumRestored])
    else ({ s with recovery := .idle }, [])
  else (s, [])

/-! ## Steps -/

/-- An action, with the events that it notifies. -/
def step : SplitBrainAction → SplitBrainSystem × List SplitBrainEvent
  | .start config => s.call (s.detector.start config).2
  | .stop =>
      -- it returns when both threads have ended their pass
      if s.detection = .idle ∧ s.recovery = .idle then s.call s.detector.stop.2 else (s, [])
  | .addNode nodeId => s.call (s.detector.addNode nodeId)
  | .removeNode nodeId => s.call (s.detector.removeNode nodeId)
  | .updateNodeStatus nodeId isAlive lastSeen =>
      s.call (s.detector.updateNodeStatus nodeId isAlive lastSeen)
  | .processHeartbeat fromNode toNode timestamp =>
      s.call (s.detector.processHeartbeat fromNode toNode timestamp)
  | .isolateNode nodeId reason =>
      let (_, d, events) := s.detector.isolateNode nodeId reason
      ({ s with detector := d }, events)
  | .restoreNode nodeId => s.call (s.detector.restoreNode nodeId).2
  | .forceMergePartitions =>
      let (_, d, events) := s.detector.forceMergePartitions
      ({ s with detector := d }, events)
  | .setEventHandler eventHandler => s.call (s.detector.setEventHandler eventHandler)
  | .updateConfig config => s.call (s.detector.updateConfig config)
  | .detect i now clock => s.detect i now clock
  | .decide i => s.decide i
  | .isolateNext => s.isolateNext
  | .beginRecovery => s.beginRecovery
  | .updateRecords now clock => s.updateRecords now clock
  | .conclude => s.conclude

/-- The state after an action. -/
def after (s : SplitBrainSystem) (a : SplitBrainAction) : SplitBrainSystem := (s.step a).1

/-! ## What an action changes -/

/-- The nodes, the isolated ones among them and the records are the same. -/
structure SameTables (d e : DefaultSplitBrainDetector) : Prop where
  nodes : e.nodes = d.nodes
  isolatedNodes : e.isolatedNodes = d.isolatedNodes
  detectedPartitions : e.detectedPartitions = d.detectedPartitions

/-- What an action can make of the tables of the detector. -/
inductive Change (s : SplitBrainSystem) : SplitBrainAction → DefaultSplitBrainDetector → Prop
  | none {a : SplitBrainAction} {d : DefaultSplitBrainDetector} (h : SameTables s.detector d) :
      Change s a d
  | addNode (nodeId : NodeId) : Change s (.addNode nodeId) (s.detector.addNode nodeId)
  | removeNode (nodeId : NodeId) : Change s (.removeNode nodeId) (s.detector.removeNode nodeId)
  | updateNode {a : SplitBrainAction} (nodeId : NodeId) {f : NodeStatus → NodeStatus}
      (hf : ∀ status, (f status).isIsolated = status.isIsolated) :
      Change s a (s.detector.updateNode nodeId f)
  | isolateNode {a : SplitBrainAction} (nodeId : NodeId) (reason : String) :
      Change s a (s.detector.isolateNode nodeId reason).2.1
  | restoreNode (nodeId : NodeId) : Change s (.restoreNode nodeId) (s.detector.restoreNode nodeId).2
  | forceMerge : Change s .forceMergePartitions s.detector.forceMergePartitions.2.1
  | detect (i : IterationOrder) (now : TimePoint) (clock : NodeId → NodeId → TimePoint) :
      Change s (.detect i now clock) (s.detector.detectNetworkPartitions i now clock).1
  | updateRecords (now : TimePoint) (clock : ℕ → NodeId → NodeId → TimePoint)
      (hstage : s.recovery = .waiting) :
      Change s (.updateRecords now clock) (s.detector.updatePartitionStatus now clock).1

theorem sameTables_refl (d : DefaultSplitBrainDetector) : SameTables d d := ⟨rfl, rfl, rfl⟩

/-- **Every action makes one of these changes.** -/
theorem change_after (s : SplitBrainSystem) (a : SplitBrainAction) :
    Change s a (s.after a).detector := by
  rw [after]
  cases a with
  | start config =>
      refine .none ?_
      show SameTables s.detector (s.detector.start config).2
      rw [DefaultSplitBrainDetector.start]
      split_ifs <;> exact ⟨rfl, rfl, rfl⟩
  | stop =>
      refine .none ?_
      rw [step, DefaultSplitBrainDetector.stop]
      split_ifs <;> exact ⟨rfl, rfl, rfl⟩
  | addNode nodeId => exact .addNode nodeId
  | removeNode nodeId => exact .removeNode nodeId
  | updateNodeStatus nodeId isAlive lastSeen => exact .updateNode nodeId fun _ => rfl
  | processHeartbeat fromNode toNode timestamp => exact .updateNode fromNode fun _ => rfl
  | isolateNode nodeId reason => exact .isolateNode nodeId reason
  | restoreNode nodeId => exact .restoreNode nodeId
  | forceMergePartitions => exact .forceMerge
  | setEventHandler | updateConfig => exact .none ⟨rfl, rfl, rfl⟩
  | detect i now clock =>
      rw [step, SplitBrainSystem.detect]
      split_ifs
      · exact .detect i now clock
      · exact .none (sameTables_refl _)
  | decide i =>
      refine .none ?_
      rw [step, SplitBrainSystem.decide]
      dsimp only
      split_ifs <;> exact ⟨rfl, rfl, rfl⟩
  | isolateNext =>
      rw [step, isolateNext]
      rcases s.detection with _ | _ | (_ | ⟨node, nodes⟩)
      · exact .none (sameTables_refl _)
      · exact .none (sameTables_refl _)
      · exact .none (sameTables_refl _)
      · exact .isolateNode node _
  | beginRecovery =>
      refine .none ?_
      rw [step, beginRecovery]
      split_ifs <;> exact ⟨rfl, rfl, rfl⟩
  | updateRecords now clock =>
      rw [step, SplitBrainSystem.updateRecords]
      split_ifs with hstage
      · exact .updateRecords now clock hstage
      · exact .none (sameTables_refl _)
  | conclude =>
      refine .none ?_
      rw [step, conclude]
      split_ifs <;> exact ⟨rfl, rfl, rfl⟩

end SplitBrainSystem

end QcDatabase
