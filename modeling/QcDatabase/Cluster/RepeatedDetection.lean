/-
# Repeated detection of a partition

Each pass of `detect_network_partitions` adds a record for every pair of components, once
within the pass (`i < j`), and compares none of them with the records that are there.  While a
partition lasts every pass records it again, with an event each time: a second pass that finds
the same components adds nothing twice iff there are fewer than two
(`recordsOnce_second_iff`).
-/
import QcDatabase.Cluster.SplitBrainDetector

open UnorderedMap

namespace QcDatabase

namespace DefaultSplitBrainDetector

variable (d : DefaultSplitBrainDetector) (i : IterationOrder) (now : TimePoint)
  (clock : NodeId → NodeId → TimePoint)

/-- The components that a pass of detection finds, after its heartbeat check. -/
def detectedComponents : List (List NodeId) :=
  findConnectedComponents { d with nodes := mapValues (checkHeartbeat d.config now) d.nodes } i
    clock

/-- The records that a pass of detection adds. -/
def addedPartitions : List NetworkPartition :=
  (pairs (d.detectedComponents i now clock)).map fun (a, b) => ⟨a, b, now, none, false⟩

theorem detectedPartitions_detectNetworkPartitions :
    (d.detectNetworkPartitions i now clock).1.detectedPartitions
      = d.detectedPartitions ++ d.addedPartitions i now clock := rfl

/-- An unresolved record is about the two components. -/
def HasUnresolved (a b : List NodeId) : Prop :=
  ∃ p ∈ d.detectedPartitions, p.resolved = false ∧ p.partitionA = a ∧ p.partitionB = b

instance (a b : List NodeId) : Decidable (d.HasUnresolved a b) :=
  inferInstanceAs (Decidable (∃ p ∈ d.detectedPartitions, _))

/-- The pass adds no record for two components that have an unresolved one. -/
def RecordsOnce : Prop :=
  ∀ p ∈ d.addedPartitions i now clock, ¬ d.HasUnresolved p.partitionA p.partitionB

instance : Decidable (d.RecordsOnce i now clock) :=
  inferInstanceAs (Decidable (∀ p ∈ d.addedPartitions i now clock, _))

theorem exists_mem_pairs_iff {α : Type} (l : List α) : (∃ p, p ∈ pairs l) ↔ 2 ≤ l.length := by
  rcases l with _ | ⟨a, _ | ⟨b, l⟩⟩
  · simp [pairs]
  · simp [pairs]
  · simp only [List.length_cons, Nat.le_add_left, iff_true]
    exact ⟨(a, b), List.mem_append_left _ List.mem_cons_self⟩

/-- After a pass all pairs of its components have an unresolved record. -/
theorem hasUnresolved_of_mem_pairs {a b : List NodeId}
    (h : (a, b) ∈ pairs (d.detectedComponents i now clock)) :
    (d.detectNetworkPartitions i now clock).1.HasUnresolved a b := by
  refine ⟨⟨a, b, now, none, false⟩, ?_, rfl, rfl, rfl⟩
  rw [detectedPartitions_detectNetworkPartitions]
  exact List.mem_append_right _ (List.mem_map_of_mem h)

/-- **A second pass that finds the same components repeats no record iff there are fewer than
two components**, whatever became of the node table in between. -/
theorem recordsOnce_second_iff (e : DefaultSplitBrainDetector) (j : IterationOrder)
    (later : TimePoint) (clock' : NodeId → NodeId → TimePoint)
    (hlist : e.detectedPartitions = (d.detectNetworkPartitions i now clock).1.detectedPartitions)
    (hsame : e.detectedComponents j later clock' = d.detectedComponents i now clock) :
    e.RecordsOnce j later clock' ↔ (d.detectedComponents i now clock).length < 2 := by
  rw [← not_le, ← exists_mem_pairs_iff]
  constructor
  · rintro honce ⟨⟨a, b⟩, hpair⟩
    refine honce ⟨a, b, later, none, false⟩ ?_ ?_
    · rw [addedPartitions, hsame]
      exact List.mem_map_of_mem hpair
    · rw [HasUnresolved, hlist]
      exact d.hasUnresolved_of_mem_pairs i now clock hpair
  · intro hnone p hp
    rw [addedPartitions, hsame] at hp
    obtain ⟨pair, hpair, -⟩ := List.mem_map.mp hp
    exact absurd ⟨pair, hpair⟩ hnone

/-- Two nodes that are alive but were not heard from for ten seconds. -/
def twoSilentNodes : DefaultSplitBrainDetector :=
  (((create.addNode [97]).addNode [98]).updateNodeStatus [97] true 0).updateNodeStatus [98] true 0

/-- A node alone. -/
def oneSilentNode : DefaultSplitBrainDetector := twoSilentNodes.removeNode [98]

theorem recordsOnce_oneSilentNode :
    oneSilentNode.detectedComponents .listed 10000000000 (fun _ _ => 10000000000) = [[[97]]] ∧
      (oneSilentNode.detectNetworkPartitions .listed 10000000000
        fun _ _ => 10000000000).1.RecordsOnce .listed 10500000000 fun _ _ => 10500000000 :=
  ⟨by decide, (recordsOnce_second_iff oneSilentNode .listed 10000000000 (fun _ _ => 10000000000)
    _ .listed 10500000000 (fun _ _ => 10500000000) rfl (by decide)).mpr (by decide)⟩

/-- Half a second later the two nodes are recorded again. -/
theorem not_recordsOnce_twoSilentNodes :
    ¬ ∀ (d : DefaultSplitBrainDetector) (i j : IterationOrder) (now later : TimePoint)
        (clock clock' : NodeId → NodeId → TimePoint),
      (d.detectNetworkPartitions i now clock).1.detectedComponents j later clock'
        = d.detectedComponents i now clock →
      (d.detectNetworkPartitions i now clock).1.RecordsOnce j later clock' := by
  intro h
  exact absurd (h twoSilentNodes .listed .listed 10000000000 10500000000 (fun _ _ => 10000000000)
    (fun _ _ => 10500000000) (by decide)) (by decide)

end DefaultSplitBrainDetector

end QcDatabase
