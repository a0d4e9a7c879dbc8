/-
# The life of a node in the detector

Every action changes the table of the nodes entry by entry: `onNode` is what it does to
the status of one node, `lookup_after` says that this is all.

* `failureDetection_exact`: while nothing is called about a node, the passes of detection
  that find it silent count up, and it is declared dead at the first one whose count
  reaches the configured number; it does not come back by itself.
* `isolated_by_detection`: the detection thread isolates only nodes that a decision of the
  strategy MAJORITY, which had a quorum, did not count as live; and an isolated node is in
  no quorum before it is restored, removed or added anew, whatever it sends.
-/
import QcDatabase.Cluster.HeartbeatOrder
import QcDatabase.Cluster.NodeIsolation
import QcDatabase.Cluster.Quorum

open UnorderedMap

namespace QcDatabase

/-- The status of a node that is isolated. -/
def NodeStatus.isolated (status : NodeStatus) (reason : String) : NodeStatus :=
  { status with isIsolated := true, isolationReason := reason }

/-- The status of a node that is restored. -/
def NodeStatus.restored (status : NodeStatus) : NodeStatus :=
  { status with isIsolated := false, isolationReason := "" }

/-- The status of a node that is reported alive or dead. -/
def NodeStatus.reported (status : NodeStatus) (isAlive : Bool) (lastSeen : TimePoint) :
    NodeStatus :=
  { status with
    isAlive := isAlive
    lastSeen := lastSeen
    missedHeartbeats := if isAlive then 0 else status.missedHeartbeats }

namespace DefaultSplitBrainDetector

variable (d : DefaultSplitBrainDetector) (n : NodeId)

/-! ## One entry -/

theorem lookup_updateNode (nodeId : NodeId) (f : NodeStatus → NodeStatus) :
    (d.updateNode nodeId f).nodes.lookup n
      = if nodeId = n then (d.nodes.lookup n).map f else d.nodes.lookup n := by
  rw [updateNode]
  rcases hlookup : d.nodes.lookup nodeId with _ | status
  · split_ifs with hid
    · rw [← hid, hlookup, Option.map_none]
    · rfl
  · dsimp only
    split_ifs with hid
    · rw [← hid, AList.lookup_insert, hlookup, Option.map_some]
    · rw [AList.lookup_insert_ne (Ne.symm hid)]

theorem nodes_isolateNode (nodeId : NodeId) (reason : String) :
    (d.isolateNode nodeId reason).2.1.nodes
      = (d.updateNode nodeId fun status => status.isolated reason).nodes := by
  rw [isolateNode, updateNode]
  rcases d.nodes.lookup nodeId with _ | status <;> rfl

theorem nodes_restoreNode (nodeId : NodeId) :
    (d.restoreNode nodeId).2.nodes = (d.updateNode nodeId NodeStatus.restored).nodes := by
  rw [restoreNode, updateNode]
  rcases d.nodes.lookup nodeId with _ | status <;> rfl

end DefaultSplitBrainDetector

open DefaultSplitBrainDetector

namespace SplitBrainSystem

/-- A pass of detection can begin. -/
def detects (s : SplitBrainSystem) : Bool :=
  s.detector.isRunning && s.detection = .idle

/-- What an action does to the status of node `n`. -/
def onNode (s : SplitBrainSystem) (n : NodeId) :
    SplitBrainAction → Option NodeStatus → Option NodeStatus
  | .addNode nodeId, o => if nodeId = n then some (NodeStatus.create n) else o
  | .removeNode nodeId, o => if nodeId = n then none else o
  | .updateNodeStatus nodeId isAlive lastSeen, o =>
      if nodeId = n then o.map fun status => status.reported isAlive lastSeen else o
  | .processHeartbeat fromNode _ timestamp, o =>
      if fromNode = n then o.map fun status => status.heard timestamp else o
  | .isolateNode nodeId reason, o =>
      if nodeId = n then o.map fun status => status.isolated reason else o
  | .restoreNode nodeId, o => if nodeId = n then o.map NodeStatus.restored else o
  | .detect _ now _, o => if s.detects then o.map (checkHeartbeat s.detector.config now) else o
  | .isolateNext, o =>
      match s.detection with
      | .isolating (node :: _) =>
          if node = n then
            o.map fun status => status.isolated "Split brain - minority partition"
          else o
      | .isolating [] => o
      | .idle => o
      | .detected => o
  | .start _, o | .stop, o | .forceMergePartitions, o | .setEventHandler _, o
  | .updateConfig _, o | .decide _, o | .beginRecovery, o | .updateRecords _ _, o
  | .conclude, o => o

variable {s : SplitBrainSystem} {a : SplitBrainAction} {n : NodeId}

/-- **An action changes the table entry by entry.** -/
theorem lookup_after (s : SplitBrainSystem) (a : SplitBrainAction) (n : NodeId) :
    (s.after a).detector.nodes.lookup n = s.onNode n a (s.detector.nodes.lookup n) := by
  rw [after]
  cases a with
  | start config =>
      show (s.detector.start config).2.nodes.lookup n = _
      rw [DefaultSplitBrainDetector.start]
      split_ifs <;> rfl
  | stop =>
      rw [step]
      split_ifs
      · show s.detector.stop.2.nodes.lookup n = _
        rw [DefaultSplitBrainDetector.stop]
        split_ifs <;> rfl
      · rfl
  | addNode nodeId =>
      rw [onNode]
      show (s.detector.nodes.insert nodeId (NodeStatus.create nodeId)).lookup n = _
      split_ifs with hid
      · rw [← hid, AList.lookup_insert]
      · rw [AList.lookup_insert_ne (Ne.symm hid)]
  | removeNode nodeId =>
      rw [onNode]
      show (s.detector.nodes.erase nodeId).lookup n = _
      split_ifs with hid
      · rw [← hid, AList.lookup_erase]
      · rw [AList.lookup_erase_ne (Ne.symm hid)]
  | updateNodeStatus nodeId isAlive lastSeen => exact lookup_updateNode _ _ _ _
  | processHeartbeat fromNode toNode timestamp =>
      exact lookup_processHeartbeat s.detector fromNode toNode n timestamp
  | isolateNode nodeId reason =>
      show (s.detector.isolateNode nodeId reason).2.1.nodes.lookup n = _
      rw [nodes_isolateNode]
      exact lookup_updateNode _ _ _ _
  | restoreNode nodeId =>
      show (s.detector.restoreNode nodeId).2.nodes.lookup n = _
      rw [nodes_restoreNode]
      exact lookup_updateNode _ _ _ _
  | forceMergePartitions | setEventHandler | updateConfig => rfl
  | detect i now clock =>
      have hdetects : s.detects = true ↔ s.detector.isRunning ∧ s.detection = .idle := by
        rw [detects, Bool.and_eq_true, decide_eq_true_iff]
      rw [step, SplitBrainSystem.detect, onNode]
      simp only [hdetects]
      split_ifs
      · exact lookup_mapValues _ _ _
      · rfl
  | decide i =>
      rw [step, SplitBrainSystem.decide]
      dsimp only
      split_ifs <;> rfl
  | isolateNext =>
      rw [step, isolateNext, onNode]
      rcases s.detection with _ | _ | (_ | ⟨node, nodes⟩)
      · rfl
      · rfl
      · rfl
      · dsimp only
        rw [nodes_isolateNode]
        exact lookup_updateNode _ _ _ _
  | beginRecovery =>
      rw [step, beginRecovery]
      split_ifs <;> rfl
  | updateRecords now clock =>
      rw [step, SplitBrainSystem.updateRecords]
      split_ifs <;> rfl
  | conclude =>
      rw [step, conclude]
      split_ifs <;> rfl

/-! ## Failure detection -/

/-- The action is not a call about node `n`. -/
def NotAbout (n : NodeId) : SplitBrainAction → Prop
  | .addNode nodeId => nodeId ≠ n
  | .removeNode nodeId => nodeId ≠ n
  | .updateNodeStatus nodeId _ _ => nodeId ≠ n
  | .processHeartbeat fromNode _ _ => fromNode ≠ n
  | .isolateNode nodeId _ => nodeId ≠ n
  | .restoreNode nodeId => nodeId ≠ n
  | _ => True

/-- The pass finds the node silent: it is not isolated, and its last heartbeat is older
than the timeout. -/
def findsSilent (config : SplitBrainConfig) (now : TimePoint) (status : NodeStatus) : Bool :=
  !status.isIsolated
    && Decidable.decide (config.heartbeatTimeout * nanosPerMilli < now - status.lastHeartbeat)

/-- How many heartbeats may be missed, if this is a pass of detection that finds the node
silent. -/
def silence (n : NodeId) (s : SplitBrainSystem) (a : SplitBrainAction) : List UInt32 :=
  match a, s.detector.nodes.lookup n with
  | .detect _ now _, some status =>
      if s.detects && findsSilent s.detector.config now status then
        [s.detector.config.maxMissedHeartbeats]
      else []
  | _, _ => []

/-- The same for the passes of a run. -/
def silences (n : NodeId) (s : SplitBrainSystem) : List SplitBrainAction → List UInt32
  | [] => []
  | a :: run => silence n s a ++ silences n (s.after a) run

theorem silence_detect {status : NodeStatus} (hstatus : s.detector.nodes.lookup n = some status)
    (i : IterationOrder) (now : TimePoint) (clock : NodeId → NodeId → TimePoint) :
    silence n s (.detect i now clock) =
      if s.detects && findsSilent s.detector.config now status then
        [s.detector.config.maxMissedHeartbeats]
      else [] := by
  unfold silence
  rw [hstatus]

theorem silence_eq_nil (h : ∀ i now clock, a ≠ .detect i now clock) : silence n s a = [] := by
  unfold silence
  cases a with
  | detect i now clock => exact absurd rfl (h i now clock)
  | _ => rfl

/-- A check of the heartbeats counts a silence, or changes nothing. -/
theorem checkHeartbeat_eq (config : SplitBrainConfig) (now : TimePoint) (status : NodeStatus) :
    checkHeartbeat config now status =
      if findsSilent config now status then
        { status with
          missedHeartbeats := status.missedHeartbeats + 1
          isAlive := status.isAlive
            && !Decidable.decide (config.maxMissedHeartbeats ≤ status.missedHeartbeats + 1) }
      else status := rfl

/-- **Step lemma.**  What an action that is not about the node does to its status. -/
theorem status_after {status : NodeStatus} (ha : NotAbout n a)
    (hstatus : s.detector.nodes.lookup n = some status) :
    ∃ status', (s.after a).detector.nodes.lookup n = some status' ∧
      status'.lastHeartbeat = status.lastHeartbeat ∧
      (silence n s a = [] ∧ status'.missedHeartbeats = status.missedHeartbeats ∧
          status'.isAlive = status.isAlive ∨
        ∃ most, silence n s a = [most] ∧
          status'.missedHeartbeats = status.missedHeartbeats + 1 ∧
          (status'.isAlive = true ↔
            status.isAlive = true ∧ status.missedHeartbeats + 1 < most)) := by
  rw [lookup_after, hstatus]
  cases a with
  | detect i now clock =>
      rw [onNode, silence_detect hstatus]
      cases s.detects with
      | false => exact ⟨status, rfl, rfl, Or.inl ⟨rfl, rfl, rfl⟩⟩
      | true =>
          rw [if_pos rfl, Option.map_some, checkHeartbeat_eq, Bool.true_and]
          cases findsSilent s.detector.config now status with
          | false => exact ⟨status, rfl, rfl, Or.inl ⟨rfl, rfl, rfl⟩⟩
          | true =>
              refine ⟨_, rfl, rfl, Or.inr ⟨_, rfl, rfl, ?_⟩⟩
              rw [if_pos rfl, Bool.and_eq_true, Bool.not_eq_true', decide_eq_false_iff_not,
                UInt32.not_le]
  | addNode | removeNode | updateNodeStatus | processHeartbeat | isolateNode | restoreNode =>
      rw [onNode, if_neg ha]
      exact ⟨status, rfl, rfl, Or.inl ⟨rfl, rfl, rfl⟩⟩
  | isolateNext =>
      rw [onNode, silence_eq_nil (fun _ _ _ h => by cases h)]
      rcases s.detection with _ | _ | (_ | ⟨node, nodes⟩)
      · exact ⟨status, rfl, rfl, Or.inl ⟨rfl, rfl, rfl⟩⟩
      · exact ⟨status, rfl, rfl, Or.inl ⟨rfl, rfl, rfl⟩⟩
      · exact ⟨status, rfl, rfl, Or.inl ⟨rfl, rfl, rfl⟩⟩
      · dsimp only
        split_ifs
        · exact ⟨_, rfl, rfl, Or.inl ⟨rfl, rfl, rfl⟩⟩
        · exact ⟨status, rfl, rfl, Or.inl ⟨rfl, rfl, rfl⟩⟩
  | start | stop | forceMergePartitions | setEventHandler | updateConfig | decide
  | beginRecovery | updateRecords | conclude =>
      exact ⟨status, rfl, rfl, Or.inl ⟨rfl, rfl, rfl⟩⟩

/-- **Failure detection is exact.**  In every run without a call about a node, the count of
its missed heartbeats grows by one at each pass that finds it silent and at no other time,
and the node is alive at the end iff it was at the beginning and no such pass brought the
count to the configured number. -/
theorem failureDetection_exact (s : SplitBrainSystem) (n : NodeId) (status : NodeStatus)
    (hstatus : s.detector.nodes.lookup n = some status) (run : List SplitBrainAction)
    (hrun : ∀ a ∈ run, NotAbout n a) :
    ∃ status', (run.foldl after s).detector.nodes.lookup n = some status' ∧
      status'.lastHeartbeat = status.lastHeartbeat ∧
      status'.missedHeartbeats =
        status.missedHeartbeats + UInt32.ofNat (silences n s run).length ∧
      (status'.isAlive = true ↔ status.isAlive = true ∧
        ∀ (k : ℕ) (hk : k < (silences n s run).length),
          status.missedHeartbeats + UInt32.ofNat (k + 1) < (silences n s run)[k]) := by
  induction run generalizing s status with
  | nil =>
      refine ⟨status, hstatus, rfl, ?_, ?_⟩
      · exact (UInt32.add_zero _).symm
      · exact (and_iff_left fun k hk => absurd hk (Nat.not_lt_zero k)).symm
  | cons a run ih =>
      obtain ⟨status₁, hstatus₁, htime, hstep⟩ :=
        status_after (hrun a List.mem_cons_self) hstatus
      obtain ⟨status', hstatus', htime', hmissed, halive⟩ := ih (s.after a) status₁ hstatus₁
        fun other hother => hrun other (List.mem_cons_of_mem a hother)
      refine ⟨status', hstatus', htime'.trans htime, ?_⟩
      rw [silences, hmissed, halive]
      have hcount : ∀ k : ℕ, status.missedHeartbeats + 1 + UInt32.ofNat k
          = status.missedHeartbeats + UInt32.ofNat (k + 1) := by
        intro k
        rw [UInt32.ofNat_add, UInt32.add_assoc, UInt32.add_comm 1]
        rfl
      rcases hstep with ⟨hnone, hsame, hsameAlive⟩ | ⟨most, hone, hnext, hnextAlive⟩
      · rw [hnone, hsame, hsameAlive]
        exact ⟨rfl, Iff.rfl⟩
      · rw [hone, hnext, hnextAlive]
        refine ⟨hcount _, ?_⟩
        rw [and_assoc]
        refine and_congr_right fun _ => ?_
        constructor
        · rintro ⟨hfirst, hrest⟩ (_ | k) hk
          · exact hfirst
          · have hk' : k < (silences n (s.after a) run).length := by
              rw [List.length_append, List.length_singleton] at hk
              omega
            have h := hrest k hk'
            rw [hcount] at h
            exact h
        · intro hall
          refine ⟨hall 0 (by simp), fun k hk => ?_⟩
          rw [hcount]
          refine hall (k + 1) ?_
          rw [List.length_append, List.length_singleton]
          omega

/-- A node that nobody heard from for three passes, with three heartbeats to be missed. -/
def silentRun : List SplitBrainAction :=
  [.detect .listed 10000000000 (fun _ _ => 0), .decide .listed,
    .detect .listed 20000000000 (fun _ _ => 0), .decide .listed, .addNode [98],
    .detect .listed 30000000000 (fun _ _ => 0)]

/-- The detector before. -/
def beforeSilence : SplitBrainSystem :=
  [SplitBrainAction.start SplitBrainConfig.default, .addNode [97],
    .processHeartbeat [97] [98] 1000000000].foldl after initial

/-- It is declared dead at the third pass. -/
theorem failureDetection_silentRun :
    silences [97] beforeSilence silentRun = [3, 3, 3] ∧
      ∃ status', (silentRun.foldl after beforeSilence).detector.nodes.lookup [97] = some status' ∧
        status'.isAlive = false := by
  obtain ⟨status', hstatus', -, -, halive⟩ := failureDetection_exact beforeSilence [97]
    ⟨[97], true, 0, 1000000000, 0, false, ""⟩ (by decide +kernel) silentRun (by
      intro a ha
      rw [silentRun] at ha
      simp only [List.mem_cons, List.not_mem_nil, or_false] at ha
      rcases ha with rfl | rfl | rfl | rfl | rfl | rfl
      all_goals first
        | trivial
        | (show ([98] : NodeId) ≠ [97]; decide))
  refine ⟨by decide +kernel, status', hstatus', ?_⟩
  rw [← Bool.not_eq_true, halive]
  rintro ⟨-, h⟩
  exact absurd (h 2 (by decide +kernel)) (by decide +kernel)

/-! ## Isolation -/

/-- The action does not end the isolation of node `n`. -/
def KeepsIsolated (n : NodeId) : SplitBrainAction → Prop
  | .addNode nodeId => nodeId ≠ n
  | .removeNode nodeId => nodeId ≠ n
  | .restoreNode nodeId => nodeId ≠ n
  | _ => True

/-- Such an action leaves a node that is isolated so. -/
theorem flagged_after (h : s.detector.Flagged n) (ha : KeepsIsolated n a) :
    (s.after a).detector.Flagged n := by
  obtain ⟨status, hstatus, hisolated⟩ := h
  unfold Flagged
  rw [lookup_after, hstatus]
  cases a with
  | addNode | removeNode | restoreNode =>
      rw [onNode, if_neg ha]
      exact ⟨status, rfl, hisolated⟩
  | updateNodeStatus | processHeartbeat =>
      rw [onNode]
      split_ifs
      · exact ⟨_, rfl, hisolated⟩
      · exact ⟨status, rfl, hisolated⟩
  | isolateNode =>
      rw [onNode]
      split_ifs
      · exact ⟨_, rfl, rfl⟩
      · exact ⟨status, rfl, hisolated⟩
  | detect i now clock =>
      rw [onNode]
      split_ifs
      · exact ⟨_, rfl, (isIsolated_checkHeartbeat _ _ _).trans hisolated⟩
      · exact ⟨status, rfl, hisolated⟩
  | isolateNext =>
      rw [onNode]
      rcases s.detection with _ | _ | (_ | ⟨node, nodes⟩)
      · exact ⟨status, rfl, hisolated⟩
      · exact ⟨status, rfl, hisolated⟩
      · exact ⟨status, rfl, hisolated⟩
      · dsimp only
        split_ifs
        · exact ⟨_, rfl, rfl⟩
        · exact ⟨status, rfl, hisolated⟩
  | start | stop | forceMergePartitions | setEventHandler | updateConfig | decide
  | beginRecovery | updateRecords | conclude => exact ⟨status, rfl, hisolated⟩

theorem flagged_run (h : s.detector.Flagged n) {run : List SplitBrainAction}
    (hrun : ∀ a ∈ run, KeepsIsolated n a) : (run.foldl after s).detector.Flagged n := by
  induction run generalizing s with
  | nil => exact h
  | cons a run ih =>
      exact ih (flagged_after h (hrun a List.mem_cons_self))
        fun other hother => hrun other (List.mem_cons_of_mem a hother)

theorem activeNodes_calculateQuorum (d : DefaultSplitBrainDetector) (i : IterationOrder) :
    (d.calculateQuorum i).activeNodes = d.nodesWith i NodeStatus.isLive := by
  unfold calculateQuorum
  rcases d.config.quorumStrategy with _ | _ | _ | _ <;> rfl

/-- No decision counts an isolated node. -/
theorem notMem_activeNodes_of_flagged (h : s.detector.Flagged n) (i : IterationOrder) :
    n ∉ (s.detector.calculateQuorum i).activeNodes := by
  obtain ⟨status, hstatus, hisolated⟩ := h
  rw [activeNodes_calculateQuorum, mem_nodesWith]
  rintro ⟨status', hstatus', hlive⟩
  rw [hstatus] at hstatus'
  obtain rfl := Option.some.inj hstatus'
  rw [NodeStatus.isLive, hisolated] at hlive
  simp at hlive

/-- A decision with a quorum lists the node among those to isolate. -/
def ChosenBy (d : DefaultSplitBrainDetector) (i : IterationOrder) (n : NodeId) : Prop :=
  (d.calculateQuorum i).hasQuorum = true ∧ n ∈ (d.calculateQuorum i).isolatedNodes

/-- Only the strategy MAJORITY lists nodes to isolate: those that are not live. -/
theorem ChosenBy.majority {d : DefaultSplitBrainDetector} {i : IterationOrder}
    (h : ChosenBy d i n) :
    d.config.quorumStrategy = .majority ∧ d.config.IsQuorum d.members d.liveNodes ∧
      n ∈ d.members ∧ n ∉ d.liveNodes := by
  obtain ⟨hquorum, hmem⟩ := h
  rw [hasQuorum_calculateQuorum_iff] at hquorum
  unfold calculateQuorum at hmem
  rcases hstrategy : d.config.quorumStrategy with _ | _ | _ | _
  · rw [hstrategy] at hmem
    change n ∈ d.nodesWith i (fun status => !status.isLive) at hmem
    obtain ⟨status, hstatus, hdead⟩ := (d.mem_nodesWith i).mp hmem
    refine ⟨rfl, hquorum, List.mem_toFinset.mpr (mem_of_lookup hstatus), ?_⟩
    rw [mem_liveNodes]
    rintro ⟨status', hstatus', hlive⟩
    rw [hstatus] at hstatus'
    obtain rfl := Option.some.inj hstatus'
    rw [hlive] at hdead
    cases hdead
  all_goals
    rw [hstrategy] at hmem
    exact absurd hmem List.not_mem_nil

/-- The nodes that the detection thread is about to isolate were chosen by a decision. -/
def IsolatesChosen (run : List SplitBrainAction) (s : SplitBrainSystem) : Prop :=
  ∀ nodes, s.detection = .isolating nodes → ∀ n ∈ nodes,
    ∃ earlier i since, run = earlier ++ .decide i :: since ∧
      ChosenBy (earlier.foldl after initial).detector i n

/-- What the detection thread is about to isolate after an action: what it was before, less
the first, or the nodes of a new decision. -/
theorem detection_after {nodes : List NodeId} (h : (s.after a).detection = .isolating nodes) :
    (∃ before, s.detection = .isolating before ∧ ∀ n ∈ nodes, n ∈ before) ∨
      ∃ i, a = .decide i ∧ ∀ n ∈ nodes, ChosenBy s.detector i n := by
  rw [SplitBrainSystem.after] at h
  cases a with
  | start | addNode | removeNode | updateNodeStatus | processHeartbeat | isolateNode
  | restoreNode | forceMergePartitions | setEventHandler | updateConfig =>
      exact Or.inl ⟨nodes, h, fun _ hn => hn⟩
  | stop =>
      rw [step] at h
      split_ifs at h
      · exact Or.inl ⟨nodes, h, fun _ hn => hn⟩
      · exact Or.inl ⟨nodes, h, fun _ hn => hn⟩
  | detect i now clock =>
      rw [step, SplitBrainSystem.detect] at h
      split_ifs at h
      exact Or.inl ⟨nodes, h, fun _ hn => hn⟩
  | decide i =>
      rw [step, SplitBrainSystem.decide] at h
      dsimp only at h
      split_ifs at h with hstage hsplit hquorum
      · obtain rfl := DetectionStage.isolating.inj h
        have hhas : (s.detector.calculateQuorum i).hasQuorum = true := by simpa using hquorum
        exact Or.inr ⟨i, rfl, fun n hn => ⟨hhas, hn⟩⟩
      · exact Or.inl ⟨nodes, h, fun _ hn => hn⟩
  | isolateNext =>
      rw [step, isolateNext] at h
      rcases hstage : s.detection with _ | _ | (_ | ⟨node, rest⟩)
      · rw [hstage] at h
        cases hstage.symm.trans h
      · rw [hstage] at h
        cases hstage.symm.trans h
      · rw [hstage] at h
        cases h
      · rw [hstage] at h
        obtain rfl := DetectionStage.isolating.inj h
        exact Or.inl ⟨_, rfl, fun _ hn => List.mem_cons_of_mem _ hn⟩
  | beginRecovery =>
      rw [step, beginRecovery] at h
      split_ifs at h <;> exact Or.inl ⟨nodes, h, fun _ hn => hn⟩
  | updateRecords now clock =>
      rw [step, SplitBrainSystem.updateRecords] at h
      split_ifs at h <;> exact Or.inl ⟨nodes, h, fun _ hn => hn⟩
  | conclude =>
      rw [step, conclude] at h
      split_ifs at h <;> exact Or.inl ⟨nodes, h, fun _ hn => hn⟩

theorem isolatesChosen_run (run : List SplitBrainAction) :
    IsolatesChosen run (run.foldl after initial) := by
  induction run using List.reverseRecOn with
  | nil => exact fun _ h => by cases h
  | append_singleton run a ih =>
      intro nodes hnodes n hn
      rw [List.foldl_append] at hnodes
      rcases detection_after hnodes with ⟨before, hbefore, hsubset⟩ | ⟨i, rfl, hchosen⟩
      · obtain ⟨earlier, i, since, hsplit, hchosen⟩ := ih before hbefore n (hsubset n hn)
        refine ⟨earlier, i, since ++ [a], ?_, hchosen⟩
        rw [hsplit, List.append_assoc, List.cons_append]
      · exact ⟨run, i, [], rfl, hchosen n hn⟩

/-- **What the detection thread isolates**: in every run, a node that it isolates was not
live in an earlier decision of the strategy MAJORITY that had a quorum, and no quorum
counts it before it is restored, removed or added anew, whatever is called meanwhile. -/
theorem isolated_by_detection (run : List SplitBrainAction) (n : NodeId) (reason : String)
    (h : .nodeIsolated n reason ∈ ((run.foldl after initial).step .isolateNext).2) :
    (∃ earlier i since, run = earlier ++ .decide i :: since ∧
      let d := (earlier.foldl after initial).detector
      d.config.quorumStrategy = .majority ∧ d.config.IsQuorum d.members d.liveNodes ∧
        n ∈ d.members ∧ n ∉ d.liveNodes ∧ n ∈ (d.calculateQuorum i).isolatedNodes) ∧
    ∀ later : List SplitBrainAction, (∀ a ∈ later, KeepsIsolated n a) → ∀ i,
      let s := later.foldl after ((run.foldl after initial).after .isolateNext)
      n ∉ (s.detector.calculateQuorum i).activeNodes := by
  have hchosen := isolatesChosen_run run
  generalize run.foldl after initial = s at h hchosen
  rcases hstage : s.detection with _ | _ | (_ | ⟨node, nodes⟩)
  all_goals rw [step, isolateNext, hstage] at h
  · exact absurd h List.not_mem_nil
  · exact absurd h List.not_mem_nil
  · exact absurd h List.not_mem_nil
  dsimp only at h
  rcases hlookup : s.detector.nodes.lookup node with _ | status
  all_goals rw [isolateNode, hlookup] at h
  · exact absurd h List.not_mem_nil
  obtain ⟨rfl, -⟩ := SplitBrainEvent.nodeIsolated.inj (List.mem_singleton.mp h)
  constructor
  · obtain ⟨earlier, i, since, hsplit, hby⟩ := hchosen _ hstage n List.mem_cons_self
    obtain ⟨hstrategy, hquorum, hmember, hdead⟩ := hby.majority
    exact ⟨earlier, i, since, hsplit, hstrategy, hquorum, hmember, hdead, hby.2⟩
  · intro later hlater i
    have hisolated : (s.after .isolateNext).detector.Flagged n := by
      unfold Flagged
      rw [lookup_after, hlookup, onNode, hstage]
      dsimp only
      rw [if_pos rfl]
      exact ⟨_, rfl, rfl⟩
    exact notMem_activeNodes_of_flagged (flagged_run hisolated hlater) i

/-- Two nodes that are heard from, one that is not, and one that is not alive. -/
def minorityRun : List SplitBrainAction :=
  [.start SplitBrainConfig.default, .addNode [97], .addNode [98], .addNode [99], .addNode [100],
    .processHeartbeat [97] [98] 100000000000, .processHeartbeat [98] [97] 100000000000,
    .updateNodeStatus [99] true 0, .detect .listed 100000000000 (fun _ _ => 100000000000),
    .decide .listed]

/-- The last one is isolated, and a heartbeat of it changes nothing. -/
theorem isolated_by_detection_minorityRun :
    (∃ earlier i since, minorityRun = earlier ++ .decide i :: since ∧
      [100] ∈ ((earlier.foldl after initial).detector.calculateQuorum i).isolatedNodes) ∧
    ∀ i,
      let s := ((minorityRun.foldl after initial).after .isolateNext).after
        (.processHeartbeat [100] [97] 101000000000)
      [100] ∉ (s.detector.calculateQuorum i).activeNodes := by
  obtain ⟨⟨earlier, i, since, hsplit, -, -, -, -, hmem⟩, hlater⟩ := isolated_by_detection minorityRun
    [100] "Split brain - minority partition" (by decide +kernel)
  refine ⟨⟨earlier, i, since, hsplit, hmem⟩, hlater [.processHeartbeat [100] [97] 101000000000] ?_⟩
  intro a ha
  rw [List.mem_singleton.mp ha]
  trivial

end SplitBrainSystem

end QcDatabase
