/-
# What a detector tells about the quorum

The two loops lock nothing around `status_`: `status_ = CONFIRMED` and
`notify_quorum_lost()` are two statements, and a whole pass of recovery may come between
them.  Here the threads go statement by statement (`detectionStep`, `recoveryStep`), with
any calls of users between any two of them; `detect_network_partitions` and
`update_partition_status`, which leave `status_` alone, are one statement each.

* `amounts_statementsOf`: the runs of `SplitBrainSystem` are those in which nothing comes between
  the statements of one of its steps.
* `quorumRestored_le_quorumLost`: each pass of recovery answers a loss, and gets ahead of
  `notify_quorum_lost` by no more than the one call that is about to be made.
-/
import QcDatabase.Cluster.DetectorEvents

namespace QcDatabase

open DefaultSplitBrainDetector

/-! ## The threads, statement by statement -/

/-- The next statement of the detection thread. -/
inductive DetectionPlace where
  /-- `detect_network_partitions()` -/
  | idle
  /-- `if (detect_split_brain())` -/
  | detected
  /-- `calculate_quorum()` and the test of its decision -/
  | split
  /-- `status_ = CONFIRMED` -/
  | losing
  /-- `notify_quorum_lost()` -/
  | telling
  /-- `isolate_node` for the first of these nodes -/
  | isolating (nodes : List NodeId)
  deriving DecidableEq, Repr

/-- The next statement of the recovery thread. -/
inductive RecoveryPlace where
  /-- `if (auto_recovery_enabled && status_ == CONFIRMED)` -/
  | idle
  /-- `status_ = RECOVERING` -/
  | claiming
  /-- `update_partition_status()` -/
  | waiting
  /-- the loop over `detected_partitions_` -/
  | updated
  /-- `status_ = HEALTHY` -/
  | healing
  /-- `notify_quorum_restored()` -/
  | telling
  deriving DecidableEq, Repr

/-- A detector and the next statements of its threads. -/
structure StatementSystem where
  detector : DefaultSplitBrainDetector
  detection : DetectionPlace
  recovery : RecoveryPlace

/-- A call of a user, or the next statement of a thread with what it reads. -/
inductive StatementAction where
  | call (a : SplitBrainAction)
  | detection (i : IterationOrder) (now : TimePoint) (clock : NodeId → NodeId → TimePoint)
  | recovery (now : TimePoint) (clock : ℕ → NodeId → NodeId → TimePoint)

namespace StatementSystem

/-- A new detector. -/
def initial : StatementSystem := ⟨.create, .idle, .idle⟩

variable (s : StatementSystem)

/-- The next statement of `DefaultSplitBrainDetector::detection_loop`. -/
def detectionStep (i : IterationOrder) (now : TimePoint) (clock : NodeId → NodeId → TimePoint) :
    StatementSystem × List SplitBrainEvent :=
  match s.detection with
  | .idle =>
      if s.detector.isRunning then
        let (d, events) := s.detector.detectNetworkPartitions i now clock
        ({ s with detector := d, detection := .detected }, events)
      else (s, [])
  | .detected =>
      ({ s with detection := if s.detector.detectSplitBrain then .split else .idle }, [])
  | .split =>
      let decision := s.detector.calculateQuorum i
      ({ s with detection :=
          if !decision.hasQuorum then .losing else .isolating decision.isolatedNodes }, [])
  | .losing =>
      ({ s with detector := { s.detector with status := .confirmed }, detection := .telling }, [])
  | .telling => ({ s with detection := .idle }, [.quorumLost])
  | .isolating (node :: nodes) =>
      let (_, d, events) := s.detector.isolateNode node "Split brain - minority partition"
      ({ s with detector := d, detection := .isolating nodes }, events)
  | .isolating [] => ({ s with detection := .idle }, [])

/-- The next statement of `DefaultSplitBrainDetector::recovery_loop`. -/
def recoveryStep (now : TimePoint) (clock : ℕ → NodeId → NodeId → TimePoint) :
    StatementSystem × List SplitBrainEvent :=
  match s.recovery with
  | .idle =>
      if s.detector.isRunning ∧ s.detector.config.autoRecoveryEnabled
          ∧ s.detector.status = .confirmed then
        ({ s with recovery := .claiming }, [])
      else (s, [])
  | .claiming =>
      ({ s with detector := { s.detector with status := .recovering }, recovery := .waiting }, [])
  | .waiting =>
      let (d, events) := s.detector.updatePartitionStatus now clock
      ({ s with detector := d, recovery := .updated }, events)
  | .updated =>
      ({ s with recovery :=
          if s.detector.detectedPartitions.all fun partition => partition.resolved then .healing
          else .idle }, [])
  | .healing =>
      ({ s with detector := { s.detector with status := .healthy }, recovery := .telling }, [])
  | .telling => ({ s with recovery := .idle }, [.quorumRestored])

/-- A call of a user; the steps of the threads are no calls. -/
def callStep : SplitBrainAction → StatementSystem × List SplitBrainEvent
  | .stop =>
      -- it returns when both threads have ended their pass
      if s.detection = .idle ∧ s.recovery = .idle then
        ({ s with detector := s.detector.stop.2 }, [])
      else (s, [])
  | .detect _ _ _ => (s, [])
  | .decide _ => (s, [])
  | .isolateNext => (s, [])
  | .beginRecovery => (s, [])
  | .updateRecords _ _ => (s, [])
  | .conclude => (s, [])
  | a =>
      let (t, events) := (SplitBrainSystem.mk s.detector .idle .idle).step a
      ({ s with detector := t.detector }, events)

/-- An action, with the events that it notifies. -/
def step : StatementAction → StatementSystem × List SplitBrainEvent
  | .call a => s.callStep a
  | .detection i now clock => s.detectionStep i now clock
  | .recovery now clock => s.recoveryStep now clock

/-- The state after an action. -/
def after (s : StatementSystem) (a : StatementAction) : StatementSystem := (s.step a).1

/-- The events of a run. -/
def told (s : StatementSystem) : List StatementAction → List SplitBrainEvent
  | [] => []
  | a :: run => (s.step a).2 ++ (s.after a).told run

theorem told_append (s : StatementSystem) (run run' : List StatementAction) :
    s.told (run ++ run') = s.told run ++ (run.foldl after s).told run' := by
  induction run generalizing s with
  | nil => rfl
  | cons a run ih => rw [List.cons_append, told, ih, told, List.append_assoc, List.foldl_cons]

/-! ## What a statement tells and leaves to be told -/

section

variable {s : StatementSystem}

/-- The pass of recovery that is under way, and the one that the status admits. -/
def pending (s : StatementSystem) : ℕ :=
  (if s.recovery = .idle then 0 else 1) +
    if s.detector.status = .confirmed ∧ s.recovery ≠ .claiming then 1 else 0

/-- The loss that the detection thread is about to tell. -/
def owed (s : StatementSystem) : ℕ := if s.detection = .telling then 1 else 0

/-- A recovery that is told or can still be told is paid for by a loss that is told or owed. -/
def Pays (s s' : StatementSystem) (events : List SplitBrainEvent) : Prop :=
  events.count .quorumRestored + s'.pending + s.owed ≤
    s.pending + (events.count .quorumLost + s'.owed)

/-- A step that tells nothing about the quorum, makes no pass begin or end, and does not set
the status to CONFIRMED. -/
theorem Pays.quiet {s' : StatementSystem} {events : List SplitBrainEvent}
    (hdetection : s'.owed = s.owed) (hrecovery : s'.recovery = s.recovery)
    (hstatus : s'.detector.status = .confirmed → s.detector.status = .confirmed)
    (hevents : .quorumRestored ∉ events) : Pays s s' events := by
  have hpending : s'.pending ≤ s.pending := by
    rw [pending, pending, hrecovery]
    refine Nat.add_le_add_left ?_ _
    split_ifs with h' h
    · exact le_rfl
    · exact absurd ⟨hstatus h'.1, h'.2⟩ h
    · exact Nat.zero_le _
    · exact le_rfl
  rw [Pays, List.count_eq_zero_of_not_mem hevents, hdetection]
  omega

theorem restored_notMem_map {β : Type} {f : β → SplitBrainEvent}
    (hf : ∀ b, f b ≠ .quorumRestored) (l : List β) : .quorumRestored ∉ l.map f := by
  intro hmem
  obtain ⟨b, -, hb⟩ := List.mem_map.mp hmem
  exact hf b hb

theorem restored_notMem_isolateNode (d : DefaultSplitBrainDetector) (nodeId : NodeId)
    (reason : String) : .quorumRestored ∉ (d.isolateNode nodeId reason).2.2 := by
  rw [isolateNode]
  rcases d.nodes.lookup nodeId with _ | status <;> simp

theorem status_isolateNode (d : DefaultSplitBrainDetector) (nodeId : NodeId) (reason : String) :
    (d.isolateNode nodeId reason).2.1.status = d.status := by
  rw [isolateNode]
  rcases d.nodes.lookup nodeId with _ | status <;> rfl

theorem status_updateNode (d : DefaultSplitBrainDetector) (nodeId : NodeId)
    (f : NodeStatus → NodeStatus) : (d.updateNode nodeId f).status = d.status := by
  rw [updateNode]
  rcases d.nodes.lookup nodeId with _ | status <;> rfl

/-- A change of the detector alone that tells nothing and leaves the status as it is. -/
theorem Pays.call {d : DefaultSplitBrainDetector} (h : d.status = s.detector.status) :
    Pays s { s with detector := d } [] :=
  .quiet rfl rfl (fun hstatus => h.symm.trans hstatus) List.not_mem_nil

theorem Pays.refl (s : StatementSystem) : Pays s s [] := Pays.call rfl

/-- No call of a user tells about the quorum or sets the status to CONFIRMED. -/
theorem pays_callStep (s : StatementSystem) (a : SplitBrainAction) :
    Pays s (s.callStep a).1 (s.callStep a).2 := by
  cases a with
  | start config =>
      refine .quiet rfl rfl ?_ List.not_mem_nil
      show (s.detector.start config).2.status = .confirmed → _
      rw [DefaultSplitBrainDetector.start]
      split_ifs
      · exact id
      · intro hstatus
        cases hstatus
  | stop =>
      rw [callStep]
      split_ifs
      · refine Pays.call ?_
        rw [DefaultSplitBrainDetector.stop]
        split_ifs <;> rfl
      · exact .refl s
  | addNode | removeNode | setEventHandler | updateConfig => exact Pays.call rfl
  | updateNodeStatus nodeId isAlive lastSeen => exact Pays.call (status_updateNode _ _ _)
  | processHeartbeat fromNode toNode timestamp => exact Pays.call (status_updateNode _ _ _)
  | isolateNode nodeId reason =>
      refine .quiet rfl rfl ?_ (restored_notMem_isolateNode _ _ _)
      show (s.detector.isolateNode nodeId reason).2.1.status = .confirmed → _
      rw [status_isolateNode]
      exact id
  | restoreNode nodeId =>
      refine Pays.call ?_
      rw [DefaultSplitBrainDetector.restoreNode]
      rcases s.detector.nodes.lookup nodeId with _ | status <;> rfl
  | forceMergePartitions =>
      refine .quiet rfl rfl (fun hstatus => by cases hstatus) (restored_notMem_map ?_ _)
      simp
  | detect | decide | isolateNext | beginRecovery | updateRecords | conclude => exact .refl s

theorem pays_detectionStep (s : StatementSystem) (i : IterationOrder) (now : TimePoint)
    (clock : NodeId → NodeId → TimePoint) :
    Pays s (s.detectionStep i now clock).1 (s.detectionStep i now clock).2 := by
  rw [detectionStep]
  cases hplace : s.detection with
  | idle =>
      dsimp only
      split_ifs
      · refine .quiet (by simp [owed, hplace]) rfl id (restored_notMem_map ?_ _)
        simp
      · exact .refl s
  | detected =>
      refine .quiet ?_ rfl id List.not_mem_nil
      dsimp only
      split_ifs <;> simp [owed, hplace]
  | split =>
      refine .quiet ?_ rfl id List.not_mem_nil
      dsimp only
      split_ifs <;> simp [owed, hplace]
  | losing =>
      -- the status admits one more pass, and the loss is owed
      by_cases hclaiming : s.recovery = .claiming
      · simp [Pays, pending, owed, hplace, hclaiming]
      · by_cases hidle : s.recovery = .idle <;> simp [Pays, pending, owed, hplace, hclaiming, hidle]
  | telling =>
      simp only [Pays, pending, owed, hplace]
      simp
  | isolating nodes =>
      rcases nodes with _ | ⟨node, nodes⟩
      · exact .quiet (by simp [owed, hplace]) rfl id List.not_mem_nil
      · refine .quiet (by simp [owed, hplace]) rfl ?_ (restored_notMem_isolateNode _ _ _)
        dsimp only
        rw [status_isolateNode]
        exact id

theorem pays_recoveryStep (s : StatementSystem) (now : TimePoint)
    (clock : ℕ → NodeId → NodeId → TimePoint) :
    Pays s (s.recoveryStep now clock).1 (s.recoveryStep now clock).2 := by
  rw [recoveryStep]
  cases hplace : s.recovery with
  | idle =>
      dsimp only
      split_ifs with hbegin
      · -- the pass that the status admitted is under way
        simp [Pays, pending, owed, hplace, hbegin.2.2]
      · exact .refl s
  | claiming => simp [Pays, pending, owed, hplace]
  | waiting =>
      have hquiet : .quorumRestored ∉ (s.detector.updatePartitionStatus now clock).2 :=
        restored_notMem_map (by simp) _
      have hstatus : (s.detector.updatePartitionStatus now clock).1.status = s.detector.status := rfl
      simp only [Pays, pending, owed, hplace, hstatus, List.count_eq_zero_of_not_mem hquiet]
      simp
  | updated =>
      dsimp only
      by_cases hconfirmed : s.detector.status = .confirmed
      · split_ifs <;> simp [Pays, pending, owed, hplace, hconfirmed]
      · split_ifs <;> simp [Pays, pending, owed, hplace, hconfirmed]
  | healing => simp [Pays, pending, owed, hplace]
  | telling => simp [Pays, pending, owed, hplace]

/-- **Step lemma.** -/
theorem pays_step (s : StatementSystem) (a : StatementAction) : Pays s (s.after a) (s.step a).2 := by
  rw [after]
  cases a with
  | call a => exact pays_callStep s a
  | detection i now clock => exact pays_detectionStep s i now clock
  | recovery now clock => exact pays_recoveryStep s now clock

/-- **Run lemma.** -/
theorem pays_run (s : StatementSystem) (run : List StatementAction) :
    Pays s (run.foldl after s) (s.told run) := by
  induction run generalizing s with
  | nil => exact .refl s
  | cons a run ih =>
      have hstep := pays_step s a
      have hrun := ih (s.after a)
      rw [Pays] at hstep hrun ⊢
      rw [told, List.count_append, List.count_append, List.foldl_cons]
      omega

end

/-- **Recovery is told only as the answer to a loss**: in every interleaving of the statements
of the two threads and of the calls of users, `notify_quorum_restored` is called no more often
than `notify_quorum_lost`, but for the one call that the detection thread is about to make. -/
theorem quorumRestored_le_quorumLost (run : List StatementAction) :
    (initial.told run).count .quorumRestored ≤
      (initial.told run).count .quorumLost + (run.foldl after initial).owed := by
  have hrun := pays_run initial run
  have hstart : initial.pending = 0 := rfl
  rw [Pays] at hrun
  omega

/-- A pass of recovery in between: it is told before the loss that it answers. -/
def overtakingRun : List StatementAction :=
  let look : StatementAction := .detection .listed 10000000000 fun _ _ => 10000000000
  let recover : StatementAction := .recovery 12000000000 fun _ _ _ => 12000000000
  [.call (.start SplitBrainConfig.default), .call (.addNode [97]), .call (.addNode [98]),
    .call (.addNode [99]), .call (.addNode [100]), .call (.updateNodeStatus [97] true 0),
    .call (.updateNodeStatus [98] true 0), look, look, look, look, recover, recover,
    .call .forceMergePartitions, recover, recover, recover, recover]

example : (initial.told overtakingRun).count .quorumRestored = 1 ∧
    (initial.told overtakingRun).count .quorumLost = 0 := by decide +kernel

/-! ## The steps of `SplitBrainSystem` -/

/-- The threads where a step of the system begins. -/
def ofSystem (s : SplitBrainSystem) : StatementSystem where
  detector := s.detector
  detection :=
    match s.detection with
    | .idle => .idle
    | .detected => .detected
    | .isolating nodes => .isolating nodes
  recovery :=
    match s.recovery with
    | .idle => .idle
    | .waiting => .waiting
    | .updated => .updated

/-- The next statement of the detection thread, where it reads no clock. -/
def detectionAt (i : IterationOrder) : StatementAction := .detection i 0 fun _ _ => 0

/-- The next statement of the recovery thread, where it reads no clock. -/
def recoveryNow : StatementAction := .recovery 0 fun _ _ _ => 0

/-- The statements that an action of the system stands for. -/
def statements (s : SplitBrainSystem) : SplitBrainAction → List StatementAction
  | .detect i now clock =>
      if s.detector.isRunning ∧ s.detection = .idle then [.detection i now clock] else []
  | .decide i =>
      if s.detection = .detected then
        if s.detector.detectSplitBrain then
          if !(s.detector.calculateQuorum i).hasQuorum then List.replicate 4 (detectionAt i)
          else List.replicate 2 (detectionAt i)
        else [detectionAt i]
      else []
  | .isolateNext =>
      match s.detection with
      | .isolating _ => [detectionAt .listed]
      | _ => []
  | .beginRecovery =>
      if s.detector.isRunning ∧ s.recovery = .idle ∧ s.detector.config.autoRecoveryEnabled
          ∧ s.detector.status = .confirmed then
        List.replicate 2 recoveryNow
      else []
  | .updateRecords now clock => if s.recovery = .waiting then [.recovery now clock] else []
  | .conclude =>
      if s.recovery = .updated then
        if s.detector.detectedPartitions.all fun partition => partition.resolved then
          List.replicate 3 recoveryNow
        else [recoveryNow]
      else []
  | a => [.call a]

/-- The statements have the effect `t` and tell `events`. -/
def Amounts (s : StatementSystem) (run : List StatementAction) (t : StatementSystem)
    (events : List SplitBrainEvent) : Prop :=
  run.foldl after s = t ∧ s.told run = events

theorem amounts_detect (s : SplitBrainSystem) (i : IterationOrder) (now : TimePoint)
    (clock : NodeId → NodeId → TimePoint) :
    Amounts (ofSystem s) (statements s (.detect i now clock)) (ofSystem (s.detect i now clock).1)
      (s.detect i now clock).2 := by
  obtain ⟨d, detection, recovery⟩ := s
  rw [SplitBrainSystem.detect, statements]
  dsimp only
  split_ifs with hready
  · obtain ⟨hrunning, rfl⟩ := hready
    simp [Amounts, told, after, step, detectionStep, ofSystem, hrunning]
  · exact ⟨rfl, rfl⟩

theorem amounts_decide (s : SplitBrainSystem) (i : IterationOrder) :
    Amounts (ofSystem s) (statements s (.decide i)) (ofSystem (s.decide i).1) (s.decide i).2 := by
  obtain ⟨d, detection, recovery⟩ := s
  rw [SplitBrainSystem.decide, statements]
  dsimp only
  split_ifs with hstage hsplit hquorum
  · subst hstage
    simp [Amounts, told, after, step, detectionStep, ofSystem, detectionAt, hsplit, hquorum,
      List.replicate]
  · subst hstage
    simp [Amounts, told, after, step, detectionStep, ofSystem, detectionAt, hsplit, hquorum,
      List.replicate]
  · subst hstage
    simp [Amounts, told, after, step, detectionStep, ofSystem, detectionAt, hsplit]
  · exact ⟨rfl, rfl⟩

theorem amounts_isolateNext (s : SplitBrainSystem) :
    Amounts (ofSystem s) (statements s .isolateNext) (ofSystem s.isolateNext.1) s.isolateNext.2 := by
  obtain ⟨d, _ | _ | (_ | ⟨node, nodes⟩), recovery⟩ := s
  · exact ⟨rfl, rfl⟩
  · exact ⟨rfl, rfl⟩
  · exact ⟨rfl, rfl⟩
  · simp [Amounts, told, after, step, detectionStep, ofSystem, detectionAt, statements,
      SplitBrainSystem.isolateNext]

theorem amounts_beginRecovery (s : SplitBrainSystem) :
    Amounts (ofSystem s) (statements s .beginRecovery) (ofSystem s.beginRecovery.1)
      s.beginRecovery.2 := by
  obtain ⟨d, detection, recovery⟩ := s
  rw [SplitBrainSystem.beginRecovery, statements]
  dsimp only
  split_ifs with hbegin
  · obtain ⟨hrunning, rfl, hauto, hconfirmed⟩ := hbegin
    simp [Amounts, told, after, step, recoveryStep, ofSystem, recoveryNow, List.replicate, hrunning,
      hauto, hconfirmed]
  · exact ⟨rfl, rfl⟩

theorem amounts_updateRecords (s : SplitBrainSystem) (now : TimePoint)
    (clock : ℕ → NodeId → NodeId → TimePoint) :
    Amounts (ofSystem s) (statements s (.updateRecords now clock))
      (ofSystem (s.updateRecords now clock).1) (s.updateRecords now clock).2 := by
  obtain ⟨d, detection, recovery⟩ := s
  rw [SplitBrainSystem.updateRecords, statements]
  dsimp only
  split_ifs with hstage
  · subst hstage
    simp [Amounts, told, after, step, recoveryStep, ofSystem]
  · exact ⟨rfl, rfl⟩

theorem amounts_conclude (s : SplitBrainSystem) :
    Amounts (ofSystem s) (statements s .conclude) (ofSystem s.conclude.1) s.conclude.2 := by
  obtain ⟨d, detection, recovery⟩ := s
  rw [SplitBrainSystem.conclude, statements]
  dsimp only
  split_ifs with hstage hall
  · subst hstage
    simp [Amounts, told, after, step, recoveryStep, ofSystem, recoveryNow, List.replicate, hall]
  · subst hstage
    simp [Amounts, told, after, step, recoveryStep, ofSystem, recoveryNow, hall]
  · exact ⟨rfl, rfl⟩

/-- A call works on the detector alone, wherever the threads are. -/
theorem amounts_call {s : SplitBrainSystem} {a : SplitBrainAction}
    {t : SplitBrainSystem} {events : List SplitBrainEvent}
    (hstatements : statements s a = [.call a])
    (h : (ofSystem s).callStep a = (ofSystem t, events)) :
    Amounts (ofSystem s) (statements s a) (ofSystem t) events := by
  rw [hstatements, Amounts, told, told, List.append_nil, List.foldl_cons, List.foldl_nil, after,
    step, h]
  exact ⟨rfl, rfl⟩

/-- **Step lemma.**  A step of the system is its statements, one after the other. -/
theorem amounts_statements (s : SplitBrainSystem) (a : SplitBrainAction) :
    Amounts (ofSystem s) (statements s a) (ofSystem (s.after a)) (s.step a).2 := by
  cases a with
  | detect i now clock => exact amounts_detect s i now clock
  | decide i => exact amounts_decide s i
  | isolateNext => exact amounts_isolateNext s
  | beginRecovery => exact amounts_beginRecovery s
  | updateRecords now clock => exact amounts_updateRecords s now clock
  | conclude => exact amounts_conclude s
  | stop =>
      refine amounts_call rfl ?_
      obtain ⟨d, _ | _ | nodes, _ | _ | _⟩ := s <;> rfl
  | start | addNode | removeNode | updateNodeStatus | processHeartbeat | isolateNode | restoreNode
  | forceMergePartitions | setEventHandler | updateConfig => exact amounts_call rfl rfl

/-- The statements of a run of the system. -/
def statementsOf (s : SplitBrainSystem) : List SplitBrainAction → List StatementAction
  | [] => []
  | a :: run => statements s a ++ statementsOf (s.after a) run

/-- **A run of the system is one of its statements**, with the same events and the same detector
at its end. -/
theorem amounts_statementsOf (s : SplitBrainSystem) (run : List SplitBrainAction) :
    Amounts (ofSystem s) (statementsOf s run) (ofSystem (run.foldl SplitBrainSystem.after s))
      (s.notified run) := by
  induction run generalizing s with
  | nil => exact ⟨rfl, rfl⟩
  | cons a run ih =>
      obtain ⟨hafter, htold⟩ := amounts_statements s a
      obtain ⟨hlater, htold'⟩ := ih (s.after a)
      rw [statementsOf, Amounts, List.foldl_append, told_append, hafter, htold, hlater, htold']
      exact ⟨rfl, rfl⟩

/-- Where nothing comes between the statements of a step, no loss is owed after it, and recovery
is told no more often than loss. -/
theorem quorumRestored_le_quorumLost_system (run : List SplitBrainAction) :
    (SplitBrainSystem.initial.notified run).count .quorumRestored ≤
      (SplitBrainSystem.initial.notified run).count .quorumLost := by
  obtain ⟨hafter, htold⟩ := amounts_statementsOf .initial run
  have hcount := quorumRestored_le_quorumLost (statementsOf .initial run)
  rw [show StatementSystem.initial = ofSystem .initial from rfl, htold, hafter] at hcount
  have howed : (ofSystem (run.foldl SplitBrainSystem.after .initial)).owed = 0 := by
    rw [owed, ofSystem]
    rcases (run.foldl SplitBrainSystem.after .initial).detection with _ | _ | nodes <;> rfl
  rwa [howed, Nat.add_zero] at hcount

end StatementSystem

end QcDatabase
