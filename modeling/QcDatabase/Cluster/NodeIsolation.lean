/-
# The two copies of the isolation of a node

That a node is isolated is said by `isolated_nodes_`, which `is_node_isolated` reads, and
by the flag of its status, which the quorum counts.  Every operation keeps the two in
agreement, for known and unknown nodes, except for `add_node`: the status of a node that
is added anew has no flag, and its id stays in `isolated_nodes_`.

The two agree in every state of a run iff no node is added whose id is in
`isolated_nodes_` (`agrees_iff_along`).
-/
import QcDatabase.Cluster.SplitBrainSystem

open StepRun UnorderedMap

namespace QcDatabase

namespace DefaultSplitBrainDetector

variable (d : DefaultSplitBrainDetector)

/-- `nodes_` contains the node with the flag. -/
def Flagged (nodeId : NodeId) : Prop :=
  ∃ status, d.nodes.lookup nodeId = some status ∧ status.isIsolated = true

/-- The two copies agree. -/
def IsolationAgrees : Prop := ∀ nodeId, nodeId ∈ d.isolatedNodes ↔ d.Flagged nodeId

variable {d} {e : DefaultSplitBrainDetector} {nodeId : NodeId}

theorem IsolationAgrees.congr (h : d.IsolationAgrees) (hset : e.isolatedNodes = d.isolatedNodes)
    (hflag : ∀ id, e.Flagged id ↔ d.Flagged id) : e.IsolationAgrees := by
  intro id
  rw [hset, hflag, h id]

/-! ## The operations -/

/-- An operation on a node that keeps the flag. -/
theorem IsolationAgrees.updateNode (h : d.IsolationAgrees) {f : NodeStatus → NodeStatus}
    (hf : ∀ status, (f status).isIsolated = status.isIsolated) :
    (d.updateNode nodeId f).IsolationAgrees := by
  rw [DefaultSplitBrainDetector.updateNode]
  rcases hlookup : d.nodes.lookup nodeId with _ | status
  · exact h
  · refine h.congr rfl fun id => ?_
    rw [Flagged, exists_lookup_insert_iff, Flagged]
    split_ifs with hid
    · rw [hid, hlookup, hf]
      simp
    · exact Iff.rfl

theorem IsolationAgrees.removeNode (h : d.IsolationAgrees) :
    (d.removeNode nodeId).IsolationAgrees := by
  intro id
  show id ∈ d.isolatedNodes.erase nodeId ↔
    ∃ status, (d.nodes.erase nodeId).lookup id = some status ∧ status.isIsolated = true
  simp only [lookup_erase_eq_some, Finset.mem_erase, h id, Flagged]
  constructor
  · rintro ⟨hne, status, hstatus, hflag⟩
    exact ⟨status, ⟨hne, hstatus⟩, hflag⟩
  · rintro ⟨status, ⟨hne, hstatus⟩, hflag⟩
    exact ⟨hne, status, hstatus, hflag⟩

theorem IsolationAgrees.isolateNode (h : d.IsolationAgrees) (reason : String) :
    (d.isolateNode nodeId reason).2.1.IsolationAgrees := by
  rw [DefaultSplitBrainDetector.isolateNode]
  rcases d.nodes.lookup nodeId with _ | status
  · exact h
  · intro id
    rw [Flagged, exists_lookup_insert_iff]
    split_ifs with hid
    · simp [hid]
    · rw [Finset.mem_insert, or_iff_right hid, h id, Flagged]

theorem IsolationAgrees.restoreNode (h : d.IsolationAgrees) :
    (d.restoreNode nodeId).2.IsolationAgrees := by
  rw [DefaultSplitBrainDetector.restoreNode]
  rcases d.nodes.lookup nodeId with _ | status
  · exact h
  · intro id
    rw [Flagged, exists_lookup_insert_iff]
    split_ifs with hid
    · simp [hid]
    · rw [Finset.mem_erase, and_iff_right hid, h id, Flagged]

theorem isIsolated_checkHeartbeat (config : SplitBrainConfig) (now : TimePoint)
    (status : NodeStatus) : (checkHeartbeat config now status).isIsolated = status.isIsolated := by
  rw [checkHeartbeat]
  split_ifs <;> rfl

theorem IsolationAgrees.detectNetworkPartitions (h : d.IsolationAgrees) (i : IterationOrder)
    (now : TimePoint) (clock : NodeId → NodeId → TimePoint) :
    (d.detectNetworkPartitions i now clock).1.IsolationAgrees := by
  refine h.congr rfl fun id => ?_
  show (∃ status, (mapValues (checkHeartbeat d.config now) d.nodes).lookup id = some status
    ∧ status.isIsolated = true) ↔ d.Flagged id
  rw [lookup_mapValues, Flagged]
  rcases d.nodes.lookup id with _ | status
  · simp
  · simp [isIsolated_checkHeartbeat]

/-- **A node that is added must not be in `isolated_nodes_`.** -/
theorem isolationAgrees_addNode_iff (h : d.IsolationAgrees) :
    (d.addNode nodeId).IsolationAgrees ↔ nodeId ∉ d.isolatedNodes := by
  have hflagged : ∀ id, (d.addNode nodeId).Flagged id ↔ id ≠ nodeId ∧ d.Flagged id := by
    intro id
    rw [Flagged, addNode, exists_lookup_insert_iff]
    split_ifs with hid
    · simp [hid, NodeStatus.create]
    · rw [and_iff_right hid, Flagged]
  constructor
  · intro hagrees hmem
    exact ((hflagged nodeId).mp ((hagrees nodeId).mp hmem)).1 rfl
  · intro hnot id
    rw [hflagged, ← h id]
    show id ∈ d.isolatedNodes ↔ _
    refine ⟨fun hid => ⟨?_, hid⟩, And.right⟩
    rintro rfl
    exact hnot hid

end DefaultSplitBrainDetector

open DefaultSplitBrainDetector

namespace SplitBrainSystem

variable {s : SplitBrainSystem} {a : SplitBrainAction}

/-! ## Runs -/

/-- A node that is added is not in `isolated_nodes_`. -/
def AddsNotIsolated (s : SplitBrainSystem) : SplitBrainAction → Prop
  | .addNode nodeId => nodeId ∉ s.detector.isolatedNodes
  | _ => True

theorem isolationAgrees_of_change {d : DefaultSplitBrainDetector} (h : s.detector.IsolationAgrees)
    (hchange : s.Change a d) (hadd : ∀ nodeId, a ≠ .addNode nodeId) : d.IsolationAgrees := by
  cases hchange with
  | none hsame =>
      refine h.congr hsame.isolatedNodes fun id => ?_
      rw [Flagged, Flagged, hsame.nodes]
  | addNode nodeId => exact absurd rfl (hadd nodeId)
  | removeNode nodeId => exact h.removeNode
  | updateNode nodeId hf => exact h.updateNode hf
  | isolateNode nodeId reason => exact h.isolateNode reason
  | restoreNode nodeId => exact h.restoreNode
  | forceMerge => exact h
  | detect i now clock => exact h.detectNetworkPartitions i now clock
  | updateRecords => exact h

theorem isolationAgrees_after_iff (h : s.detector.IsolationAgrees) :
    (s.after a).detector.IsolationAgrees ↔ s.AddsNotIsolated a := by
  cases a with
  | addNode nodeId => exact isolationAgrees_addNode_iff h
  | _ => exact iff_of_true (isolationAgrees_of_change h (change_after s _) nofun) trivial

theorem isolationAgrees_initial : initial.detector.IsolationAgrees := by
  intro id
  refine iff_of_false (Finset.notMem_empty id) ?_
  rintro ⟨status, hstatus, -⟩
  cases hstatus

/-- **The two copies agree throughout a run iff no node is added in it whose id is in
`isolated_nodes_`.** -/
theorem agrees_iff_along (run : List SplitBrainAction) :
    (∀ before, before <+: run → (before.foldl after initial).detector.IsolationAgrees) ↔
      Along after AddsNotIsolated initial run :=
  forall_prefix_iff_along (fun _ => True) (fun s : SplitBrainSystem => s.detector.IsolationAgrees)
    (fun _ _ _ => trivial) (fun _ _ _ h => isolationAgrees_after_iff h) trivial
    isolationAgrees_initial

/-- An isolated node is added again. -/
def addedAgain : List SplitBrainAction := [.addNode [97], .isolateNode [97] "", .addNode [97]]

theorem not_agrees_addedAgain :
    ¬ ∀ before, before <+: addedAgain →
      (before.foldl after initial).detector.IsolationAgrees := by
  intro h
  have hmem : ([97] : NodeId) ∈ (addedAgain.foldl after initial).detector.isolatedNodes := by decide
  obtain ⟨status, hstatus, hflag⟩ := (h addedAgain List.prefix_rfl [97]).mp hmem
  obtain rfl : NodeStatus.create [97] = status := Option.some.inj hstatus
  exact absurd hflag (by decide)

end SplitBrainSystem

end QcDatabase
