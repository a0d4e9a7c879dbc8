/-
# Records of partitions

Detection appends records, a recovery pass marks those as resolved whose two sides are
connected again, and `force_merge_partitions` alone removes records.  `detect_split_brain`
takes its answer from the list: a record that is resolved keeps it at "yes".

The answer is right in every state of a run iff no recovery pass resolves all records of
a list that is not empty (`answersRecords_iff_along`).
-/
import QcDatabase.Cluster.SplitBrainSystem

open StepRun

namespace QcDatabase

namespace DefaultSplitBrainDetector

variable (d : DefaultSplitBrainDetector)

/-! ## The operations -/

theorem detectedPartitions_updateNode (nodeId : NodeId) (f : NodeStatus → NodeStatus) :
    (d.updateNode nodeId f).detectedPartitions = d.detectedPartitions := by
  rw [updateNode]
  cases d.nodes.lookup nodeId <;> rfl

theorem detectedPartitions_isolateNode (nodeId : NodeId) (reason : String) :
    (d.isolateNode nodeId reason).2.1.detectedPartitions = d.detectedPartitions := by
  rw [isolateNode]
  cases d.nodes.lookup nodeId <;> rfl

theorem detectedPartitions_restoreNode (nodeId : NodeId) :
    (d.restoreNode nodeId).2.detectedPartitions = d.detectedPartitions := by
  rw [restoreNode]
  cases d.nodes.lookup nodeId <;> rfl

/-- Detection adds records that are not resolved. -/
theorem exists_detectedPartitions_append (i : IterationOrder) (now : TimePoint)
    (clock : NodeId → NodeId → TimePoint) :
    ∃ new, (d.detectNetworkPartitions i now clock).1.detectedPartitions
        = d.detectedPartitions ++ new ∧ ∀ p ∈ new, p.resolved = false := by
  refine ⟨_, rfl, ?_⟩
  intro p hp
  obtain ⟨pair, -, rfl⟩ := List.mem_map.mp hp
  rfl

/-- No record is left. -/
theorem detectedPartitions_forceMergePartitions :
    d.forceMergePartitions.2.1.detectedPartitions = [] := by
  rw [forceMergePartitions]
  refine List.filter_eq_nil_iff.mpr ?_
  intro p hp
  obtain ⟨partition, -, rfl⟩ := List.mem_map.mp hp
  exact Bool.false_ne_true

/-! ## Records that are not resolved -/

/-- A record is not resolved. -/
def Unresolved : Prop := ∃ p ∈ d.detectedPartitions, p.resolved = false

/-- `detect_split_brain` answers whether there is a record that is not resolved. -/
def AnswersRecords : Prop := d.detectSplitBrain = true ↔ d.Unresolved

instance : Decidable d.Unresolved :=
  inferInstanceAs (Decidable (∃ p ∈ d.detectedPartitions, p.resolved = false))

instance : Decidable d.AnswersRecords :=
  inferInstanceAs (Decidable (d.detectSplitBrain = true ↔ d.Unresolved))

theorem detectSplitBrain_iff : d.detectSplitBrain = true ↔ d.detectedPartitions ≠ [] := by
  rw [detectSplitBrain, Bool.not_eq_true', List.isEmpty_eq_false_iff]

variable {d}

theorem Unresolved.ne_nil (h : d.Unresolved) : d.detectedPartitions ≠ [] := by
  obtain ⟨p, hp, -⟩ := h
  exact List.ne_nil_of_mem hp

/-- The answer is wrong where all records of a list that is not empty are resolved. -/
theorem answersRecords_iff : d.AnswersRecords ↔ (d.detectedPartitions ≠ [] → d.Unresolved) := by
  rw [AnswersRecords, detectSplitBrain_iff]
  exact ⟨Iff.mp, fun h => ⟨h, Unresolved.ne_nil⟩⟩

theorem answersRecords_of_eq {e : DefaultSplitBrainDetector}
    (h : e.detectedPartitions = d.detectedPartitions) (hd : d.AnswersRecords) :
    e.AnswersRecords := by
  rw [answersRecords_iff, Unresolved, h]
  exact answersRecords_iff.mp hd

theorem AnswersRecords.append {e : DefaultSplitBrainDetector} (hd : d.AnswersRecords)
    {new : List NetworkPartition} (h : e.detectedPartitions = d.detectedPartitions ++ new)
    (hnew : ∀ p ∈ new, p.resolved = false) : e.AnswersRecords := by
  rw [answersRecords_iff, Unresolved, h]
  intro hne
  rcases new with _ | ⟨p, new⟩
  · rw [List.append_nil] at hne ⊢
    exact answersRecords_iff.mp hd hne
  · exact ⟨p, by simp, hnew p List.mem_cons_self⟩

/-! ## A recovery pass -/

/-- With these clock readings an update leaves a record that is not resolved: no pair of
nodes across it is connected. -/
def LeavesUnresolved (d : DefaultSplitBrainDetector) (clock : ℕ → NodeId → NodeId → TimePoint) :
    Prop :=
  ∃ k p, d.detectedPartitions[k]? = some p ∧ p.resolved = false ∧
    d.interPartitionConnected (clock k) p = false

theorem resolved_updatePartition (now : TimePoint) (clock : NodeId → NodeId → TimePoint)
    (p : NetworkPartition) : (d.updatePartition now clock p).resolved = false ↔
      p.resolved = false ∧ d.interPartitionConnected clock p = false := by
  rw [updatePartition]
  cases hresolved : p.resolved <;> cases d.interPartitionConnected clock p <;> simp [hresolved]

theorem unresolved_updatePartitionStatus_iff (now : TimePoint)
    (clock : ℕ → NodeId → NodeId → TimePoint) :
    (d.updatePartitionStatus now clock).1.Unresolved ↔ d.LeavesUnresolved clock := by
  rw [Unresolved, LeavesUnresolved, updatePartitionStatus]
  constructor
  · rintro ⟨p', hp', hresolved⟩
    obtain ⟨k, hk⟩ := List.mem_iff_getElem?.mp hp'
    rw [List.getElem?_mapIdx, Option.map_eq_some_iff] at hk
    obtain ⟨p, hp, rfl⟩ := hk
    exact ⟨k, p, hp, (resolved_updatePartition now (clock k) p).mp hresolved⟩
  · rintro ⟨k, p, hp, hleft⟩
    refine ⟨d.updatePartition now (clock k) p, List.mem_iff_getElem?.mpr ⟨k, ?_⟩,
      (resolved_updatePartition now (clock k) p).mpr hleft⟩
    rw [List.getElem?_mapIdx, hp, Option.map_some]

/-- **After an update the answer is right iff a record is left that is not resolved, or the
list is empty.** -/
theorem answersRecords_updatePartitionStatus_iff (now : TimePoint)
    (clock : ℕ → NodeId → NodeId → TimePoint) :
    (d.updatePartitionStatus now clock).1.AnswersRecords ↔
      (d.detectedPartitions ≠ [] → d.LeavesUnresolved clock) := by
  rw [answersRecords_iff, unresolved_updatePartitionStatus_iff]
  refine imp_congr_left (not_congr ?_)
  rw [updatePartitionStatus]
  exact List.mapIdx_eq_nil_iff

end DefaultSplitBrainDetector

open DefaultSplitBrainDetector

namespace SplitBrainSystem

variable {s : SplitBrainSystem} {a : SplitBrainAction}

/-! ## Runs -/

/-- The action does not resolve all records of a list that is not empty. -/
def LeavesRecord (s : SplitBrainSystem) : SplitBrainAction → Prop
  | .updateRecords _ clock =>
      s.recovery = .waiting → s.detector.detectedPartitions ≠ [] →
        s.detector.LeavesUnresolved clock
  | _ => True

theorem leavesRecord_of_not_update
    (h : ∀ now clock, a = .updateRecords now clock → s.recovery ≠ .waiting) : s.LeavesRecord a := by
  cases a with
  | updateRecords now clock => exact fun hstage => absurd hstage (h now clock rfl)
  | _ => trivial

theorem answersRecords_of_change {d : DefaultSplitBrainDetector} (h : s.detector.AnswersRecords)
    (hchange : s.Change a d)
    (hupdate : ∀ now clock, a = .updateRecords now clock → s.recovery ≠ .waiting) :
    d.AnswersRecords := by
  cases hchange with
  | none hsame => exact answersRecords_of_eq hsame.detectedPartitions h
  | addNode | removeNode => exact h
  | updateNode nodeId => exact answersRecords_of_eq (detectedPartitions_updateNode _ nodeId _) h
  | isolateNode nodeId reason =>
      exact answersRecords_of_eq (detectedPartitions_isolateNode _ nodeId reason) h
  | restoreNode nodeId => exact answersRecords_of_eq (detectedPartitions_restoreNode _ nodeId) h
  | forceMerge =>
      exact answersRecords_iff.mpr
        fun hne => absurd (detectedPartitions_forceMergePartitions s.detector) hne
  | detect i now clock =>
      obtain ⟨new, happend, hnew⟩ := s.detector.exists_detectedPartitions_append i now clock
      exact h.append happend hnew
  | updateRecords now clock hstage => exact absurd hstage (hupdate now clock rfl)

theorem answersRecords_after_iff (h : s.detector.AnswersRecords) :
    (s.after a).detector.AnswersRecords ↔ s.LeavesRecord a := by
  by_cases hupdate : ∃ now clock, a = .updateRecords now clock ∧ s.recovery = .waiting
  · obtain ⟨now, clock, rfl, hstage⟩ := hupdate
    have hafter : (s.after (.updateRecords now clock)).detector
        = (s.detector.updatePartitionStatus now clock).1 := by
      rw [after, step, updateRecords, if_pos hstage]
    rw [hafter, answersRecords_updatePartitionStatus_iff]
    exact ⟨fun hleft _ => hleft, fun hleft => hleft hstage⟩
  · have hother : ∀ now clock, a = .updateRecords now clock → s.recovery ≠ .waiting :=
      fun now clock ha hstage => hupdate ⟨now, clock, ha, hstage⟩
    exact iff_of_true (answersRecords_of_change h (change_after s a) hother)
      (leavesRecord_of_not_update hother)

/-- **The answer of `detect_split_brain` is right throughout a run iff no recovery pass of it
resolves all records of a list that is not empty.** -/
theorem answersRecords_iff_along (run : List SplitBrainAction) :
    (∀ before, before <+: run → (before.foldl after initial).detector.AnswersRecords) ↔
      Along after LeavesRecord initial run :=
  forall_prefix_iff_along (fun _ => True) (fun s : SplitBrainSystem => s.detector.AnswersRecords)
    (fun _ _ _ => trivial) (fun _ _ _ h => answersRecords_after_iff h) trivial (by decide)

/-- Two of four nodes are alive but were not heard from for ten seconds, which is taken for
a partition; two heartbeats, and it is resolved. -/
def healedRun : List SplitBrainAction :=
  [.start SplitBrainConfig.default, .addNode [97], .addNode [98], .addNode [99], .addNode [100],
    .updateNodeStatus [97] true 0, .updateNodeStatus [98] true 0,
    .detect .listed 10000000000 (fun _ _ => 10000000000), .decide .listed, .beginRecovery,
    .processHeartbeat [97] [98] 11000000000, .processHeartbeat [98] [97] 11000000000,
    .updateRecords 12000000000 (fun _ _ _ => 12000000000), .conclude]

/-- The record stays in the list. -/
theorem not_answersRecords_healed :
    ¬ ∀ before, before <+: healedRun → (before.foldl after initial).detector.AnswersRecords := by
  intro h
  exact absurd (h healedRun List.prefix_rfl) (by decide +kernel)

end SplitBrainSystem

end QcDatabase
