/-
# How the events of a detector account for its records

The events that a run notifies, in order (`notified`), for any order of the passes of the
two threads and of the calls of users.  A part of a pass that is one step of
`SplitBrainSystem` tells its events in that step: `detect_network_partitions` and
`update_partition_status` lock nothing, and no call falls into them here.

`detected_eq_resolved_add_unresolved`: as often as a partition was told to be detected, it
was told to be resolved or has a record that is not.
-/
import QcDatabase.Cluster.PartitionRecords

namespace QcDatabase

/-- What a record of a partition is about. -/
def NetworkPartition.occasion (p : NetworkPartition) : List NodeId × List NodeId × TimePoint :=
  (p.partitionA, p.partitionB, p.detectedAt)

/-- The event tells that this partition was detected. -/
def SplitBrainEvent.tellsDetected (o : List NodeId × List NodeId × TimePoint) :
    SplitBrainEvent → Bool
  | .splitBrainDetected p => decide (p.occasion = o)
  | _ => false

/-- The event tells that this partition is resolved. -/
def SplitBrainEvent.tellsResolved (o : List NodeId × List NodeId × TimePoint) :
    SplitBrainEvent → Bool
  | .splitBrainResolved p => decide (p.occasion = o)
  | _ => false

/-- The record is about this partition and not resolved. -/
def NetworkPartition.isOpenFor (o : List NodeId × List NodeId × TimePoint)
    (p : NetworkPartition) : Bool :=
  !p.resolved && decide (p.occasion = o)

open DefaultSplitBrainDetector NetworkPartition SplitBrainEvent

namespace SplitBrainSystem

variable {s : SplitBrainSystem} {a : SplitBrainAction}

/-- The events of a run. -/
def notified (s : SplitBrainSystem) : List SplitBrainAction → List SplitBrainEvent
  | [] => []
  | a :: run => (s.step a).2 ++ (s.after a).notified run

theorem notified_concat (s : SplitBrainSystem) (run : List SplitBrainAction)
    (a : SplitBrainAction) :
    s.notified (run ++ [a]) = s.notified run ++ ((run.foldl after s).step a).2 := by
  induction run generalizing s with
  | nil =>
      rw [List.nil_append, notified, notified, notified, List.append_nil]
      rfl
  | cons first run ih =>
      rw [List.cons_append, notified, notified, ih, List.append_assoc]
      rfl

/-! ## The records -/

/-- What an action does to the records, and what it tells about them. -/
inductive RecordChange (records : List NetworkPartition) :
    List NetworkPartition → List SplitBrainEvent → Prop
  | same {events : List SplitBrainEvent}
      (h : ∀ event ∈ events, ∀ o, tellsDetected o event = false ∧ tellsResolved o event = false) :
      RecordChange records records events
  | detected {new : List NetworkPartition} (hnew : ∀ p ∈ new, p.resolved = false) :
      RecordChange records (records ++ new) (new.map .splitBrainDetected)
  | updated {f : ℕ → NetworkPartition → NetworkPartition}
      (hoccasion : ∀ k p, (f k p).occasion = p.occasion)
      (hresolved : ∀ k p, p.resolved = true → (f k p).resolved = true) :
      RecordChange records (records.mapIdx f)
        (((records.zip (records.mapIdx f)).filter fun p => !p.1.resolved && p.2.resolved).map
          fun p => .splitBrainResolved p.2)
  | merged :
      RecordChange records []
        ((records.filter fun p => !p.resolved).map fun p => .splitBrainResolved
          { p with resolved := true })

theorem RecordChange.silent {records records' : List NetworkPartition} (h : records' = records) :
    RecordChange records records' [] := by
  rw [h]
  exact .same (List.forall_mem_nil _)

/-- One event, about no record. -/
theorem RecordChange.told {records : List NetworkPartition} {event : SplitBrainEvent}
    (h : ∀ o, tellsDetected o event = false ∧ tellsResolved o event = false) :
    RecordChange records records [event] :=
  .same (List.forall_mem_singleton.mpr h)

theorem recordChange_isolateNode (d : DefaultSplitBrainDetector) (nodeId : NodeId)
    (reason : String) :
    RecordChange d.detectedPartitions (d.isolateNode nodeId reason).2.1.detectedPartitions
      (d.isolateNode nodeId reason).2.2 := by
  rw [detectedPartitions_isolateNode, isolateNode]
  rcases d.nodes.lookup nodeId with _ | status
  · exact .same (List.forall_mem_nil _)
  · exact .told fun o => ⟨rfl, rfl⟩

theorem recordChange_updatePartitionStatus (d : DefaultSplitBrainDetector) (now : TimePoint)
    (clock : ℕ → NodeId → NodeId → TimePoint) :
    RecordChange d.detectedPartitions (d.updatePartitionStatus now clock).1.detectedPartitions
      (d.updatePartitionStatus now clock).2 := by
  refine .updated ?_ ?_
  · intro k p
    rw [updatePartition]
    split_ifs <;> rfl
  · intro k p hp
    rw [updatePartition]
    split_ifs
    · rfl
    · exact hp

theorem recordChange_forceMergePartitions (d : DefaultSplitBrainDetector) :
    RecordChange d.detectedPartitions d.forceMergePartitions.2.1.detectedPartitions
      d.forceMergePartitions.2.2 := by
  rw [detectedPartitions_forceMergePartitions]
  exact .merged

theorem recordChange_detectNetworkPartitions (d : DefaultSplitBrainDetector) (i : IterationOrder)
    (now : TimePoint) (clock : NodeId → NodeId → TimePoint) :
    RecordChange d.detectedPartitions (d.detectNetworkPartitions i now clock).1.detectedPartitions
      (d.detectNetworkPartitions i now clock).2 := by
  refine .detected ?_
  intro p hp
  obtain ⟨pair, -, rfl⟩ := List.mem_map.mp hp
  rfl

/-- **Every action makes one of these changes.** -/
theorem recordChange_step (s : SplitBrainSystem) (a : SplitBrainAction) :
    RecordChange s.detector.detectedPartitions (s.after a).detector.detectedPartitions
      (s.step a).2 := by
  rw [after]
  cases a with
  | start config =>
      refine RecordChange.silent ?_
      show (s.detector.start config).2.detectedPartitions = _
      rw [DefaultSplitBrainDetector.start]
      split_ifs <;> rfl
  | stop =>
      rw [step]
      split_ifs
      · refine RecordChange.silent ?_
        show s.detector.stop.2.detectedPartitions = _
        rw [DefaultSplitBrainDetector.stop]
        split_ifs <;> rfl
      · exact RecordChange.silent rfl
  | addNode | removeNode | setEventHandler | updateConfig => exact RecordChange.silent rfl
  | updateNodeStatus nodeId isAlive lastSeen =>
      exact RecordChange.silent (detectedPartitions_updateNode _ _ _)
  | processHeartbeat fromNode toNode timestamp =>
      exact RecordChange.silent (detectedPartitions_updateNode _ _ _)
  | isolateNode nodeId reason => exact recordChange_isolateNode _ _ _
  | restoreNode nodeId => exact RecordChange.silent (detectedPartitions_restoreNode _ _)
  | forceMergePartitions => exact recordChange_forceMergePartitions _
  | detect i now clock =>
      rw [step, SplitBrainSystem.detect]
      split_ifs
      · exact recordChange_detectNetworkPartitions _ _ _ _
      · exact RecordChange.silent rfl
  | decide i =>
      rw [step, SplitBrainSystem.decide]
      dsimp only
      split_ifs
      · exact .told fun o => ⟨rfl, rfl⟩
      · exact RecordChange.silent rfl
      · exact RecordChange.silent rfl
      · exact RecordChange.silent rfl
  | isolateNext =>
      rw [step, isolateNext]
      rcases s.detection with _ | _ | (_ | ⟨node, nodes⟩)
      · exact RecordChange.silent rfl
      · exact RecordChange.silent rfl
      · exact RecordChange.silent rfl
      · exact recordChange_isolateNode _ _ _
  | beginRecovery =>
      rw [step, beginRecovery]
      split_ifs <;> exact RecordChange.silent rfl
  | updateRecords now clock =>
      rw [step, SplitBrainSystem.updateRecords]
      split_ifs
      · exact recordChange_updatePartitionStatus _ _ _
      · exact RecordChange.silent rfl
  | conclude =>
      rw [step, conclude]
      split_ifs
      · exact .told fun o => ⟨rfl, rfl⟩
      · exact RecordChange.silent rfl
      · exact RecordChange.silent rfl

/-- Records that are updated in place: those that are resolved leave the open ones. -/
theorem countP_mapIdx {f : ℕ → NetworkPartition → NetworkPartition}
    (hoccasion : ∀ k p, (f k p).occasion = p.occasion)
    (hresolved : ∀ k p, p.resolved = true → (f k p).resolved = true)
    (o : List NodeId × List NodeId × TimePoint) (records : List NetworkPartition) :
    (records.mapIdx f).countP (isOpenFor o) +
        (((records.zip (records.mapIdx f)).filter fun p => !p.1.resolved && p.2.resolved).map
          fun p => SplitBrainEvent.splitBrainResolved p.2).countP (tellsResolved o) =
      records.countP (isOpenFor o) := by
  induction records generalizing f with
  | nil => rfl
  | cons p records ih =>
      have htail := ih (f := fun k => f (k + 1)) (fun k => hoccasion (k + 1))
        fun k => hresolved (k + 1)
      rw [List.mapIdx_cons, List.zip_cons_cons, List.countP_cons, List.countP_cons, ← htail]
      have hhead : isOpenFor o (f 0 p)
          = (!(f 0 p).resolved && Decidable.decide (p.occasion = o)) := by
        rw [isOpenFor, hoccasion]
      rw [hhead, List.filter_cons]
      cases hp : p.resolved with
      | true =>
          rw [hresolved 0 p hp, isOpenFor, hp]
          simp
      | false =>
          cases hnow : (f 0 p).resolved with
          | true =>
              simp only [Bool.not_false, Bool.and_self, if_true, List.map_cons, List.countP_cons,
                tellsResolved, hoccasion, isOpenFor, hp, Bool.not_true, Bool.false_and,
                Bool.true_and]
              simp
              omega
          | false =>
              simp only [isOpenFor, hp, Bool.not_false, Bool.true_and, Bool.and_false]
              simp
              omega

theorem countP_tellsDetected_resolved {β : Type} (f : β → NetworkPartition)
    (o : List NodeId × List NodeId × TimePoint) (l : List β) :
    (l.map fun b => SplitBrainEvent.splitBrainResolved (f b)).countP (tellsDetected o) = 0 := by
  rw [List.countP_map, List.countP_eq_zero]
  exact fun b _ => Bool.false_ne_true

/-- **Step lemma.**  What is told to be detected becomes open, and what is told to be
resolved is open no more. -/
theorem RecordChange.count {records records' : List NetworkPartition}
    {events : List SplitBrainEvent} (h : RecordChange records records' events)
    (o : List NodeId × List NodeId × TimePoint) :
    records'.countP (isOpenFor o) + events.countP (tellsResolved o) =
      records.countP (isOpenFor o) + events.countP (tellsDetected o) := by
  cases h with
  | same h =>
      have hdetected : events.countP (tellsDetected o) = 0 :=
        List.countP_eq_zero.mpr fun event hevent => Bool.eq_false_iff.mp (h event hevent o).1
      have hresolved : events.countP (tellsResolved o) = 0 :=
        List.countP_eq_zero.mpr fun event hevent => Bool.eq_false_iff.mp (h event hevent o).2
      rw [hdetected, hresolved]
  | @detected new hnew =>
      have hopen : new.countP (isOpenFor o) =
          (new.map SplitBrainEvent.splitBrainDetected).countP (tellsDetected o) := by
        rw [List.countP_map]
        refine List.countP_congr ?_
        intro p hp
        rw [isOpenFor, hnew p hp]
        exact Iff.rfl
      have hnone : (new.map SplitBrainEvent.splitBrainDetected).countP (tellsResolved o) = 0 := by
        rw [List.countP_map, List.countP_eq_zero]
        exact fun p hp => Bool.false_ne_true
      rw [List.countP_append, hopen, hnone, Nat.add_zero]
  | updated hoccasion hresolved =>
      rw [countP_mapIdx hoccasion hresolved, countP_tellsDetected_resolved, Nat.add_zero]
  | merged =>
      rw [countP_tellsDetected_resolved, List.countP_nil, Nat.zero_add, Nat.add_zero, List.countP_map,
        List.countP_filter]
      refine List.countP_congr ?_
      intro p _
      rw [isOpenFor, Bool.and_comm]
      exact Iff.rfl

/-! ## Runs -/

/-- **The events account for the records**: in every run each partition was told to be
detected as often as it was told to be resolved or has a record that is not resolved. -/
theorem detected_eq_resolved_add_unresolved (run : List SplitBrainAction)
    (o : List NodeId × List NodeId × TimePoint) :
    (initial.notified run).countP (tellsDetected o) =
      (initial.notified run).countP (tellsResolved o) +
        (run.foldl after initial).detector.detectedPartitions.countP (isOpenFor o) := by
  induction run using List.reverseRecOn with
  | nil => rfl
  | append_singleton run a ih =>
      have hstep := (recordChange_step (run.foldl after initial) a).count o
      rw [notified_concat, List.countP_append, List.countP_append, List.foldl_append, ih]
      show _ = _ + ((run.foldl after initial).after a).detector.detectedPartitions.countP _
      omega

end SplitBrainSystem

end QcDatabase
