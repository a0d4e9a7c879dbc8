/-
# The order of heartbeats

`process_heartbeat` writes the timestamp of a heartbeat into the status of the sender,
whatever stands there: the last heartbeat that is delivered decides, not the latest one that
was sent.

So the node table is the same for every order of delivery, with the largest timestamp of each
known sender, iff all heartbeats of a sender carry one timestamp that is no older than the one
in its status (`heartbeatsCommute_iff`).
-/
import QcDatabase.Cluster.SplitBrainDetector

open UnorderedMap

namespace QcDatabase

/-- A call of `process_heartbeat`. -/
structure Heartbeat where
  fromNode : NodeId
  toNode : NodeId
  timestamp : TimePoint
  deriving DecidableEq, Repr

/-- The status of a node after a heartbeat of it. -/
def NodeStatus.heard (status : NodeStatus) (timestamp : TimePoint) : NodeStatus :=
  { status with lastHeartbeat := timestamp, isAlive := true, missedHeartbeats := 0 }

/-- The largest element of a list. -/
def IsLargest (t : TimePoint) (ts : List TimePoint) : Prop := t ∈ ts ∧ ∀ u ∈ ts, u ≤ t

namespace DefaultSplitBrainDetector

variable (d : DefaultSplitBrainDetector)

/-- Deliver heartbeats one after the other. -/
def deliver (heartbeats : List Heartbeat) : DefaultSplitBrainDetector :=
  heartbeats.foldl (fun d h => d.processHeartbeat h.fromNode h.toNode h.timestamp) d

/-- The timestamps of the heartbeats of a node. -/
def timestampsOf (id : NodeId) (heartbeats : List Heartbeat) : List TimePoint :=
  (heartbeats.filter fun h => h.fromNode = id).map Heartbeat.timestamp

/-! ## What is delivered -/

theorem lookup_processHeartbeat (fromNode toNode id : NodeId) (timestamp : TimePoint) :
    (d.processHeartbeat fromNode toNode timestamp).nodes.lookup id
      = if fromNode = id then (d.nodes.lookup id).map fun status => status.heard timestamp
        else d.nodes.lookup id := by
  rw [processHeartbeat, updateNode]
  rcases hlookup : d.nodes.lookup fromNode with _ | status
  · split_ifs with hid
    · rw [← hid, hlookup, Option.map_none]
    · rfl
  · dsimp only
    split_ifs with hid
    · rw [← hid, AList.lookup_insert, hlookup, Option.map_some]
      rfl
    · rw [AList.lookup_insert_ne (Ne.symm hid)]

/-- A node hears its own heartbeats, in the order of delivery. -/
theorem lookup_deliver (heartbeats : List Heartbeat) (id : NodeId) :
    (d.deliver heartbeats).nodes.lookup id
      = (d.nodes.lookup id).map fun status =>
          (timestampsOf id heartbeats).foldl NodeStatus.heard status := by
  induction heartbeats generalizing d with
  | nil => exact Option.map_id'.symm
  | cons h heartbeats ih =>
      show ((d.processHeartbeat h.fromNode h.toNode h.timestamp).deliver heartbeats).nodes.lookup id
        = _
      rw [ih, lookup_processHeartbeat, timestampsOf, timestampsOf, List.filter_cons]
      by_cases hid : h.fromNode = id
      · rw [if_pos hid, if_pos (decide_eq_true hid), Option.map_map, List.map_cons]
        rfl
      · rw [if_neg hid, if_neg (by simpa using hid)]

/-- Only the heartbeat that is delivered last shows. -/
theorem foldl_heard_append (status : NodeStatus) (ts : List TimePoint) (t : TimePoint) :
    (ts ++ [t]).foldl NodeStatus.heard status = status.heard t := by
  rw [List.foldl_append]
  show (ts.foldl NodeStatus.heard status).heard t = status.heard t
  induction ts generalizing status with
  | nil => rfl
  | cons u ts ih => exact ih (status.heard u)

theorem foldl_heard_of_forall_eq (status : NodeStatus) {ts : List TimePoint} {t : TimePoint}
    (hne : ts ≠ []) (h : ∀ u ∈ ts, u = t) : ts.foldl NodeStatus.heard status = status.heard t := by
  rw [← List.dropLast_append_getLast hne, foldl_heard_append, h _ (List.getLast_mem hne)]

theorem mem_timestampsOf {id : NodeId} {heartbeats : List Heartbeat} {t : TimePoint} :
    t ∈ timestampsOf id heartbeats ↔ ∃ h ∈ heartbeats, h.fromNode = id ∧ h.timestamp = t := by
  simp [timestampsOf, and_assoc]

/-! ## Orders of delivery -/

/-- Whatever the order of delivery, the node table is the same, and each node in it has the
largest of its own timestamp and those of its heartbeats. -/
def HeartbeatsCommute (heartbeats : List Heartbeat) : Prop :=
  ∀ order : List Heartbeat, order.Perm heartbeats → ∀ id,
    (d.deliver order).nodes.lookup id = (d.deliver heartbeats).nodes.lookup id ∧
    ∀ status status', d.nodes.lookup id = some status →
      (d.deliver order).nodes.lookup id = some status' →
      IsLargest status'.lastHeartbeat (status.lastHeartbeat :: timestampsOf id heartbeats)

/-- The heartbeats of each known sender carry one timestamp, no older than the one in its
status. -/
def InStep (heartbeats : List Heartbeat) : Prop :=
  ∀ h ∈ heartbeats, ∀ status, d.nodes.lookup h.fromNode = some status →
    status.lastHeartbeat ≤ h.timestamp ∧
      ∀ h' ∈ heartbeats, h'.fromNode = h.fromNode → h'.timestamp = h.timestamp

variable {d}

/-- A heartbeat that may be delivered last is the latest of its sender. -/
theorem HeartbeatsCommute.isLargest {heartbeats : List Heartbeat}
    (hcommute : d.HeartbeatsCommute heartbeats) {h : Heartbeat} (hh : h ∈ heartbeats)
    {status : NodeStatus} (hstatus : d.nodes.lookup h.fromNode = some status) :
    IsLargest h.timestamp (status.lastHeartbeat :: timestampsOf h.fromNode heartbeats) := by
  have hperm : (heartbeats.erase h ++ [h]).Perm heartbeats :=
    List.perm_append_comm.trans (List.perm_cons_erase hh).symm
  have htimes : timestampsOf h.fromNode (heartbeats.erase h ++ [h])
      = timestampsOf h.fromNode (heartbeats.erase h) ++ [h.timestamp] := by
    simp [timestampsOf]
  refine (hcommute _ hperm h.fromNode).2 status (status.heard h.timestamp) hstatus ?_
  rw [lookup_deliver, hstatus, Option.map_some, htimes, foldl_heard_append]

theorem InStep.foldl_heard {heartbeats order : List Heartbeat} (h : d.InStep heartbeats)
    (hperm : order.Perm heartbeats) {id : NodeId} {status : NodeStatus}
    (hstatus : d.nodes.lookup id = some status) {t : TimePoint}
    (ht : t ∈ timestampsOf id heartbeats) :
    (timestampsOf id order).foldl NodeStatus.heard status = status.heard t := by
  obtain ⟨b, hb, rfl, rfl⟩ := mem_timestampsOf.mp ht
  have htimes : (timestampsOf b.fromNode order).Perm (timestampsOf b.fromNode heartbeats) :=
    (hperm.filter _).map _
  refine foldl_heard_of_forall_eq status (List.ne_nil_of_mem (htimes.mem_iff.mpr ht)) ?_
  intro u hu
  obtain ⟨b', hb', hfrom, rfl⟩ := mem_timestampsOf.mp (htimes.mem_iff.mp hu)
  exact (h b hb status hstatus).2 b' hb' hfrom

theorem InStep.isLargest {heartbeats : List Heartbeat} (h : d.InStep heartbeats) {id : NodeId}
    {status : NodeStatus} (hstatus : d.nodes.lookup id = some status) {t : TimePoint}
    (ht : t ∈ timestampsOf id heartbeats) :
    IsLargest t (status.lastHeartbeat :: timestampsOf id heartbeats) := by
  refine ⟨List.mem_cons_of_mem _ ht, fun u hu => ?_⟩
  obtain ⟨b, hb, rfl, rfl⟩ := mem_timestampsOf.mp ht
  rcases List.mem_cons.mp hu with rfl | hu
  · exact (h b hb status hstatus).1
  · obtain ⟨b', hb', hfrom, rfl⟩ := mem_timestampsOf.mp hu
    exact ((h b hb status hstatus).2 b' hb' hfrom).le

variable (d)

/-- **Heartbeats commute iff those of each known sender carry one timestamp**, which is no
older than the one in its status. -/
theorem heartbeatsCommute_iff (heartbeats : List Heartbeat) :
    d.HeartbeatsCommute heartbeats ↔ d.InStep heartbeats := by
  constructor
  · intro hcommute h hh status hstatus
    -- each heartbeat of a node comes last in some order
    have hlargest := (hcommute.isLargest hh hstatus).2
    refine ⟨hlargest _ List.mem_cons_self, fun h' hh' hfrom => ?_⟩
    have hlargest' := (hcommute.isLargest hh' (hfrom ▸ hstatus)).2
    refine le_antisymm (hlargest _ ?_) (hlargest' _ ?_)
    · exact List.mem_cons_of_mem _ (mem_timestampsOf.mpr ⟨h', hh', hfrom, rfl⟩)
    · exact List.mem_cons_of_mem _ (mem_timestampsOf.mpr ⟨h, hh, hfrom.symm, rfl⟩)
  · intro h order hperm id
    rw [lookup_deliver, lookup_deliver]
    rcases hstatus : d.nodes.lookup id with _ | status
    · exact ⟨rfl, fun _ _ hnone => by cases hnone⟩
    · rw [Option.map_some, Option.map_some]
      by_cases hempty : timestampsOf id heartbeats = []
      · -- no heartbeat of the node is delivered
        have hnone : timestampsOf id order = [] :=
          List.perm_nil.mp (hempty ▸ (hperm.filter _).map _)
        rw [hnone, hempty]
        refine ⟨rfl, fun _ _ hsome hsome' => ?_⟩
        obtain rfl := Option.some.inj hsome
        obtain rfl := Option.some.inj hsome'
        exact ⟨List.mem_cons_self, fun u hu => (List.mem_singleton.mp hu).le⟩
      · obtain ⟨t, ht⟩ := List.exists_mem_of_ne_nil _ hempty
        -- in every order the last heartbeat of the node brings the same time
        rw [h.foldl_heard hperm hstatus ht, h.foldl_heard (List.Perm.refl heartbeats) hstatus ht]
        refine ⟨rfl, fun _ _ hsome hsome' => ?_⟩
        obtain rfl := Option.some.inj hsome
        obtain rfl := Option.some.inj hsome'
        exact h.isLargest hstatus ht

/-- A node that is heard at 2 s, after which its heartbeat of 1 s comes in. -/
theorem not_heartbeatsCommute_late :
    ¬ ∀ (d : DefaultSplitBrainDetector) (heartbeats : List Heartbeat),
      d.HeartbeatsCommute heartbeats := by
  intro h
  let heartbeats : List Heartbeat := [⟨[97], [98], 2000000000⟩, ⟨[97], [98], 1000000000⟩]
  have hlargest := (h (create.addNode [97]) heartbeats heartbeats (List.Perm.refl _) [97]).2
    (NodeStatus.create [97]) ((NodeStatus.create [97]).heard 1000000000) (by decide) (by decide)
  exact absurd (hlargest.2 2000000000 (by decide)) (by decide)

end DefaultSplitBrainDetector

end QcDatabase
