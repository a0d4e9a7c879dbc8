/-
# Reports of recovery

`recovery_loop` sets the status to HEALTHY and notifies `on_quorum_restored` when all
records are resolved; a record is resolved when one node of either side was heard from.
How many nodes are alive by then, it does not ask.

A run reports the truth iff no recovery pass ends with all records resolved while the live
nodes are too few for a quorum (`reportsTruth_iff_along`).
-/
import QcDatabase.Cluster.PartitionRecords
import QcDatabase.Cluster.Quorum

open StepRun

namespace QcDatabase

/-- A step of the recovery thread. -/
def SplitBrainAction.OfRecovery : SplitBrainAction → Prop
  | .beginRecovery => True
  | .updateRecords _ _ => True
  | .conclude => True
  | _ => False

open DefaultSplitBrainDetector

namespace SplitBrainSystem

variable {s : SplitBrainSystem} {a : SplitBrainAction}

/-- The recovery thread notifies `on_quorum_restored` or turns the status to HEALTHY. -/
def Reports (s : SplitBrainSystem) (a : SplitBrainAction) : Prop :=
  .quorumRestored ∈ (s.step a).2 ∨
    a.OfRecovery ∧ s.detector.status ≠ .healthy ∧ (s.after a).detector.status = .healthy

/-- What is reported is true. -/
def ReportsTruth (s : SplitBrainSystem) (a : SplitBrainAction) : Prop :=
  s.Reports a → ∀ i, ((s.after a).detector.calculateQuorum i).hasQuorum = true

/-! ## The step that reports -/

theorem all_resolved_iff (d : DefaultSplitBrainDetector) :
    (d.detectedPartitions.all fun partition => partition.resolved) = true ↔ ¬ d.Unresolved := by
  rw [List.all_eq_true, Unresolved, not_exists]
  refine forall_congr' fun p => ?_
  rw [not_and, Bool.not_eq_false]

theorem quorumRestored_notMem_isolateNode (d : DefaultSplitBrainDetector) (nodeId : NodeId)
    (reason : String) : .quorumRestored ∉ (d.isolateNode nodeId reason).2.2 := by
  rw [isolateNode]
  cases d.nodes.lookup nodeId <;> simp

/-- The end of a recovery pass is the only step that notifies `on_quorum_restored`. -/
theorem eq_conclude_of_quorumRestored_mem (h : .quorumRestored ∈ (s.step a).2) :
    a = .conclude ∧ s.recovery = .updated ∧ ¬ s.detector.Unresolved := by
  cases a with
  | conclude =>
      rw [step, conclude] at h
      split_ifs at h with hstage hall
      · exact ⟨rfl, hstage, (all_resolved_iff s.detector).mp hall⟩
      · exact absurd h List.not_mem_nil
      · exact absurd h List.not_mem_nil
  -- the other actions report nothing, or events of another kind
  | start | addNode | removeNode | updateNodeStatus | processHeartbeat | restoreNode
  | setEventHandler | updateConfig => exact absurd h List.not_mem_nil
  | stop =>
      rw [step] at h
      split_ifs at h <;> exact absurd h List.not_mem_nil
  | isolateNode => exact absurd h (quorumRestored_notMem_isolateNode _ _ _)
  | forceMergePartitions =>
      obtain ⟨p, -, hp⟩ := List.mem_map.mp h
      cases hp
  | detect i now clock =>
      rw [step, detect] at h
      split_ifs at h
      · obtain ⟨p, -, hp⟩ := List.mem_map.mp h
        cases hp
      · exact absurd h List.not_mem_nil
  | decide i =>
      rw [step, SplitBrainSystem.decide] at h
      dsimp only at h
      split_ifs at h <;> simp at h
  | isolateNext =>
      rw [step, isolateNext] at h
      rcases hstage : s.detection with _ | _ | (_ | ⟨node, nodes⟩)
      · rw [hstage] at h
        exact absurd h List.not_mem_nil
      · rw [hstage] at h
        exact absurd h List.not_mem_nil
      · rw [hstage] at h
        exact absurd h List.not_mem_nil
      · rw [hstage] at h
        exact absurd h (quorumRestored_notMem_isolateNode _ _ _)
  | beginRecovery =>
      rw [step, beginRecovery] at h
      split_ifs at h <;> exact absurd h List.not_mem_nil
  | updateRecords now clock =>
      rw [step, updateRecords] at h
      split_ifs at h
      · obtain ⟨p, -, hp⟩ := List.mem_map.mp h
        cases hp
      · exact absurd h List.not_mem_nil

/-- The other steps of the recovery thread do not turn the status to HEALTHY. -/
theorem quorumRestored_mem_of_status (ha : a.OfRecovery) (hbefore : s.detector.status ≠ .healthy)
    (hafter : (s.after a).detector.status = .healthy) : .quorumRestored ∈ (s.step a).2 := by
  rw [after] at hafter
  cases a with
  | beginRecovery =>
      rw [step, beginRecovery] at hafter
      split_ifs at hafter
      exact absurd hafter hbefore
  | updateRecords now clock =>
      rw [step, updateRecords] at hafter
      split_ifs at hafter
      · exact absurd hafter hbefore
      · exact absurd hafter hbefore
  | conclude =>
      rw [step, conclude] at hafter ⊢
      split_ifs at hafter ⊢
      · exact List.mem_singleton_self _
      · exact absurd hafter hbefore
      · exact absurd hafter hbefore
  | _ => exact ha.elim

theorem conclude_of_all_resolved (hstage : s.recovery = .updated) (h : ¬ s.detector.Unresolved) :
    s.step .conclude =
      ({ s with detector := { s.detector with status := .healthy }, recovery := .idle },
        [.quorumRestored]) := by
  rw [step, conclude, if_pos hstage, if_pos ((all_resolved_iff s.detector).mpr h)]

/-- **Recovery reports at the end of a pass that finds no record that is not resolved.** -/
theorem reports_iff :
    s.Reports a ↔ a = .conclude ∧ s.recovery = .updated ∧ ¬ s.detector.Unresolved := by
  constructor
  · rintro (h | ⟨ha, hbefore, hafter⟩)
    · exact eq_conclude_of_quorumRestored_mem h
    · exact eq_conclude_of_quorumRestored_mem (quorumRestored_mem_of_status ha hbefore hafter)
  · rintro ⟨rfl, hstage, h⟩
    refine Or.inl ?_
    rw [conclude_of_all_resolved hstage h]
    exact List.mem_singleton_self _

/-! ## Runs -/

/-- A recovery pass that ends here finds a record that is not resolved, or enough nodes. -/
def EnoughToReport (s : SplitBrainSystem) : SplitBrainAction → Prop
  | .conclude =>
      s.recovery = .updated → ¬ s.detector.Unresolved →
        s.detector.config.IsQuorum s.detector.members s.detector.liveNodes
  | _ => True

theorem reportsTruth_iff (s : SplitBrainSystem) (a : SplitBrainAction) :
    s.ReportsTruth a ↔ s.EnoughToReport a := by
  by_cases h : a = .conclude ∧ s.recovery = .updated ∧ ¬ s.detector.Unresolved
  · obtain ⟨rfl, hstage, hresolved⟩ := h
    have hafter : (s.after .conclude).detector = { s.detector with status := .healthy } := by
      rw [after, conclude_of_all_resolved hstage hresolved]
    have hquorum : ∀ i, ((s.after .conclude).detector.calculateQuorum i).hasQuorum = true ↔
        s.detector.config.IsQuorum s.detector.members s.detector.liveNodes := by
      intro i
      rw [hasQuorum_calculateQuorum_iff, hafter]
      exact Iff.rfl
    constructor
    · intro h _ _
      exact (hquorum .listed).mp (h (reports_iff.mpr ⟨rfl, hstage, hresolved⟩) .listed)
    · intro h _ i
      exact (hquorum i).mpr (h hstage hresolved)
  · refine iff_of_true (fun hreports => absurd (reports_iff.mp hreports) h) ?_
    cases a with
    | conclude => exact fun hstage hresolved => absurd ⟨rfl, hstage, hresolved⟩ h
    | _ => trivial

/-- **Every report of a run is true iff no recovery pass of it ends with all records resolved
and too few live nodes.** -/
theorem reportsTruth_iff_along (run : List SplitBrainAction) :
    (∀ before a rest, run = before ++ a :: rest → (before.foldl after initial).ReportsTruth a) ↔
      Along after EnoughToReport initial run := by
  rw [along_iff_forall]
  simp only [reportsTruth_iff]

/-- When the partition between two of four nodes is healed, the other two are still dead. -/
theorem not_reportsTruth_healed :
    ¬ ∀ before a rest, healedRun = before ++ a :: rest →
      (before.foldl after initial).ReportsTruth a := by
  intro h
  have hreports : SplitBrainEvent.quorumRestored
      ∈ ((healedRun.dropLast.foldl after initial).step .conclude).2 := by decide +kernel
  exact absurd (h healedRun.dropLast .conclude [] rfl (Or.inl hreports) .listed) (by decide +kernel)

end SplitBrainSystem

end QcDatabase
