/-
# What is taken for a partition

Two nodes count as connected when both were heard from lately (`areNodesConnected_eq`).
So the components of a pass are the alive nodes that were heard from, all in one, and
every other alive node alone (`isGrouping_of_readsAlike`), as long as no node falls silent
between the clock readings of the pass (`ReadsAlike`).

A partition is detected exactly when one of at least two alive nodes was not heard from,
and a record never has two sides of more than one node (`partitions_are_silences`).
-/
import QcDatabase.Cluster.DetectorEvents
import QcDatabase.Cluster.NetworkPartitions
import QcDatabase.Cluster.NodeLife
import QcDatabase.Cluster.RepeatedDetection

open ComponentSearch Relation StepRun UnorderedMap

namespace QcDatabase

namespace DefaultSplitBrainDetector

variable {d : DefaultSplitBrainDetector} {i : IterationOrder} {now : TimePoint}
  {clock : NodeId → NodeId → TimePoint}

/-- The node was heard from within twice the timeout. -/
def heardLately (d : DefaultSplitBrainDetector) (now : TimePoint) (n : NodeId) : Bool :=
  match d.nodes.lookup n with
  | none => false
  | some status =>
      decide (now - status.lastHeartbeat < d.config.heartbeatTimeout * 2 * nanosPerMilli)

/-- All readings of the clock find the same nodes silent. -/
def ReadsAlike (d : DefaultSplitBrainDetector) (clock : NodeId → NodeId → TimePoint) : Prop :=
  ∀ a b a' b' n, d.heardLately (clock a b) n = d.heardLately (clock a' b') n

theorem areNodesConnected_eq (d : DefaultSplitBrainDetector) (a b : NodeId) (now : TimePoint) :
    d.areNodesConnected a b now = (d.heardLately now a && d.heardLately now b) := by
  unfold areNodesConnected heardLately
  rcases d.nodes.lookup a with _ | status₁ <;> rcases d.nodes.lookup b with _ | status₂
  · rfl
  · rfl
  · rw [Bool.and_false]
  · rfl

/-- The check of the heartbeats does not change who was heard from. -/
theorem heardLately_mapValues (config : SplitBrainConfig) (t now : TimePoint) (n : NodeId) :
    { d with nodes := mapValues (checkHeartbeat config t) d.nodes }.heardLately now n =
      d.heardLately now n := by
  unfold heardLately
  rw [lookup_mapValues]
  rcases d.nodes.lookup n with _ | status
  · rfl
  · have htime : (checkHeartbeat config t status).lastHeartbeat = status.lastHeartbeat := by
      rw [checkHeartbeat]
      split_ifs <;> rfl
    rw [Option.map_some]
    dsimp only
    rw [htime]

/-! ## The components of a pass -/

theorem connected_eq (h : d.ReadsAlike clock) (t : NodeId) (a b : NodeId) :
    d.connected clock a b
      = (d.heardLately (clock t t) a && d.heardLately (clock t t) b) := by
  rw [connected, areNodesConnected_eq, h a b t t a, h a b t t b]

/-- Paths join nodes that were heard from, and no others. -/
theorem reflTransGen_connected_iff {vertices : List NodeId} (h : d.ReadsAlike clock) (t : NodeId)
    {a b : NodeId} (ha : a ∈ vertices) (hb : b ∈ vertices) :
    ReflTransGen (Edge vertices (d.connected clock)) a b ↔
      a = b ∨ d.heardLately (clock t t) a = true ∧ d.heardLately (clock t t) b = true := by
  constructor
  · intro hpath
    clear hb
    induction hpath with
    | refl => exact Or.inl rfl
    | tail _ hedge ih =>
        have hlast := hedge.2.2
        rw [connected_eq h t, Bool.and_eq_true] at hlast
        rcases ih with rfl | ⟨hfirst, -⟩
        · exact Or.inr hlast
        · exact Or.inr ⟨hfirst, hlast.2⟩
  · rintro (rfl | hboth)
    · exact ReflTransGen.refl
    · refine ReflTransGen.single ⟨ha, hb, ?_⟩
      rw [connected_eq h t, Bool.and_eq_true]
      exact hboth

/-- **The components: the nodes that were heard from, and each other node alone.** -/
theorem isGrouping_of_readsAlike (h : d.ReadsAlike clock) (i : IterationOrder) (t : NodeId) :
    IsGrouping (d.nodesWith i NodeStatus.isAlive)
      (fun a b => a = b ∨
        d.heardLately (clock t t) a = true ∧ d.heardLately (clock t t) b = true)
      (d.findConnectedComponents i clock) := by
  have hsymm : ∀ a ∈ d.nodesWith i NodeStatus.isAlive, ∀ b ∈ d.nodesWith i NodeStatus.isAlive,
      d.connected clock a b = true → d.connected clock b a = true := by
    intro a _ b _
    rw [connected_eq h t, connected_eq h t, Bool.and_comm]
    exact id
  rw [findConnectedComponents, componentsFrom_eq]
  refine IsGrouping.congr (isGrouping_componentsFrom hsymm (d.nodup_nodesWith i _) ?_)
    fun a ha b hb => reflTransGen_connected_iff h t ha hb
  rw [nodesWith, List.length_map, ← (i.perm d.nodes.entries).length_eq]
  exact (List.length_filter_le _ _).trans (Nat.le_succ _)

/-- What a relation says of any two elements in this order, it says of the pairs. -/
theorem forall_mem_pairs {α : Type} {R : α → α → Prop} {l : List α} (h : l.Pairwise R) :
    ∀ p ∈ pairs l, R p.1 p.2 := by
  induction h with
  | nil => exact fun p hp => by cases hp
  | cons hhead _ ih =>
      intro p hp
      rcases List.mem_append.mp hp with hfirst | hrest
      · obtain ⟨y, hy, rfl⟩ := List.mem_map.mp hfirst
        exact hhead y hy
      · exact ih p hrest

theorem mem_of_mem_pairs {α : Type} {l : List α} {p : α × α} (hp : p ∈ pairs l) :
    p.1 ∈ l ∧ p.2 ∈ l :=
  forall_mem_pairs (R := fun a b => a ∈ l ∧ b ∈ l)
    (List.pairwise_of_forall_mem_list fun _ ha _ hb => ⟨ha, hb⟩) p hp

/-- Two elements make a list of length two. -/
theorem two_le_length_of_mem {α : Type} {l : List α} {a b : α} (ha : a ∈ l) (hb : b ∈ l)
    (hne : a ≠ b) : 2 ≤ l.length := by
  rcases l with _ | ⟨c, _ | ⟨c', l⟩⟩
  · cases ha
  · exact absurd ((List.mem_singleton.mp ha).trans (List.mem_singleton.mp hb).symm) hne
  · exact Nat.le_add_left 2 l.length

/-- A component with a silent node has no other node. -/
theorem eq_singleton_of_silent (h : d.ReadsAlike clock) {t x : NodeId} {g : List NodeId}
    (hg : g ∈ d.findConnectedComponents i clock) (hx : x ∈ g)
    (hsilent : d.heardLately (clock t t) x = false) : g = [x] := by
  have hgroups := isGrouping_of_readsAlike h i t
  have hnodup := hgroups.nodup_of_mem (d.nodup_nodesWith i _) hg
  have hall : ∀ b ∈ g, b = x := by
    intro b hb
    rcases (hgroups.mem_iff (d.nodup_nodesWith i _) hg hx (hgroups.mem_vertices hg hb)).mp hb with
      heq | ⟨hheard, -⟩
    · exact heq.symm
    · rw [hsilent] at hheard
      cases hheard
  rw [List.eq_replicate_iff.mpr ⟨rfl, hall⟩] at hnodup ⊢
  have hlength := List.nodup_replicate.mp hnodup
  have hpos : 0 < g.length := List.length_pos_of_mem hx
  rw [show g.length = 1 by omega]
  rfl

/-- **One of two components is a silent node.** -/
theorem exists_silent_of_mem_pairs (h : d.ReadsAlike clock) (t : NodeId)
    {p : List NodeId × List NodeId} (hp : p ∈ pairs (d.findConnectedComponents i clock)) :
    ∃ x, (p.1 = [x] ∨ p.2 = [x]) ∧ d.heardLately (clock t t) x = false := by
  have hgroups := isGrouping_of_readsAlike h i t
  have hnodup : (d.findConnectedComponents i clock).flatten.Nodup :=
    hgroups.perm.nodup_iff.mpr (d.nodup_nodesWith i _)
  have hdisjoint := forall_mem_pairs (List.nodup_flatten.mp hnodup).2 p hp
  obtain ⟨hfirst, hsecond⟩ := mem_of_mem_pairs hp
  by_contra hnone
  rw [not_exists] at hnone
  -- both were heard from, so they are one component
  obtain ⟨a, ha⟩ := List.exists_mem_of_ne_nil _ (hgroups.ne_nil p.1 hfirst)
  obtain ⟨b, hb⟩ := List.exists_mem_of_ne_nil _ (hgroups.ne_nil p.2 hsecond)
  have hheardA : d.heardLately (clock t t) a = true := by
    by_contra hsilent
    rw [Bool.not_eq_true] at hsilent
    exact hnone a ⟨Or.inl (eq_singleton_of_silent h hfirst ha hsilent), hsilent⟩
  have hheardB : d.heardLately (clock t t) b = true := by
    by_contra hsilent
    rw [Bool.not_eq_true] at hsilent
    exact hnone b ⟨Or.inr (eq_singleton_of_silent h hsecond hb hsilent), hsilent⟩
  have hjoined := (hgroups.mem_iff (d.nodup_nodesWith i _) hfirst ha
    (hgroups.mem_vertices hsecond hb)).mpr (Or.inr ⟨hheardA, hheardB⟩)
  exact hdisjoint hjoined hb

/-- There are two components iff one of two alive nodes is silent. -/
theorem pairs_ne_nil_iff (h : d.ReadsAlike clock) (t : NodeId) :
    pairs (d.findConnectedComponents i clock) ≠ [] ↔
      ∃ x ∈ d.nodesWith i NodeStatus.isAlive, ∃ y ∈ d.nodesWith i NodeStatus.isAlive,
        x ≠ y ∧ d.heardLately (clock t t) x = false := by
  have hgroups := isGrouping_of_readsAlike h i t
  constructor
  · intro hne
    obtain ⟨p, hp⟩ := List.exists_mem_of_ne_nil _ hne
    obtain ⟨hfirst, hsecond⟩ := mem_of_mem_pairs hp
    have hnodup : (d.findConnectedComponents i clock).flatten.Nodup :=
      hgroups.perm.nodup_iff.mpr (d.nodup_nodesWith i _)
    have hdisjoint := forall_mem_pairs (List.nodup_flatten.mp hnodup).2 p hp
    obtain ⟨x, hside, hsilent⟩ := exists_silent_of_mem_pairs h t hp
    rcases hside with hside | hside
    · obtain ⟨y, hy⟩ := List.exists_mem_of_ne_nil _ (hgroups.ne_nil p.2 hsecond)
      have hx : x ∈ p.1 := hside ▸ List.mem_singleton_self x
      refine ⟨x, hgroups.mem_vertices hfirst hx, y, hgroups.mem_vertices hsecond hy, ?_, hsilent⟩
      rintro rfl
      exact hdisjoint hx hy
    · obtain ⟨y, hy⟩ := List.exists_mem_of_ne_nil _ (hgroups.ne_nil p.1 hfirst)
      have hx : x ∈ p.2 := hside ▸ List.mem_singleton_self x
      refine ⟨x, hgroups.mem_vertices hsecond hx, y, hgroups.mem_vertices hfirst hy, ?_, hsilent⟩
      rintro rfl
      exact hdisjoint hy hx
  · rintro ⟨x, hx, y, hy, hne, hsilent⟩
    obtain ⟨g, hg, hxg⟩ := hgroups.exists_mem hx
    obtain ⟨g', hg', hyg'⟩ := hgroups.exists_mem hy
    have hdifferent : g ≠ g' := by
      rintro rfl
      rw [eq_singleton_of_silent h hg hxg hsilent] at hyg'
      exact hne (List.mem_singleton.mp hyg').symm
    intro hnil
    obtain ⟨p, hp⟩ := (exists_mem_pairs_iff _).mpr (two_le_length_of_mem hg hg' hdifferent)
    rw [hnil] at hp
    cases hp

end DefaultSplitBrainDetector

open DefaultSplitBrainDetector

namespace SplitBrainSystem

/-- No node falls silent between the clock readings of a pass of detection. -/
def SteadyPass (s : SplitBrainSystem) : SplitBrainAction → Prop
  | .detect _ _ clock => s.detector.ReadsAlike clock
  | _ => True

/-- A pass of the run has recorded this, and one side was a node that it found silent. -/
def FromSilence (run : List SplitBrainAction) (o : List NodeId × List NodeId × TimePoint) :
    Prop :=
  ∃ earlier i now clock since x, run = earlier ++ .detect i now clock :: since ∧ o.2.2 = now ∧
    (o.1 = [x] ∨ o.2.1 = [x]) ∧
    (earlier.foldl after initial).detector.heardLately (clock x x) x = false

theorem FromSilence.append {run : List SplitBrainAction}
    {o : List NodeId × List NodeId × TimePoint} (h : FromSilence run o)
    (more : List SplitBrainAction) : FromSilence (run ++ more) o := by
  obtain ⟨earlier, i, now, clock, since, x, rfl, hside⟩ := h
  exact ⟨earlier, i, now, clock, since ++ more, x, by simp, hside⟩

/-- The detector whose components a pass searches. -/
def checked (s : SplitBrainSystem) (now : TimePoint) : DefaultSplitBrainDetector :=
  { s.detector with
    nodes := mapValues (checkHeartbeat s.detector.config now) s.detector.nodes }

theorem readsAlike_checked {s : SplitBrainSystem} {clock : NodeId → NodeId → TimePoint}
    (h : s.detector.ReadsAlike clock) (now : TimePoint) : (s.checked now).ReadsAlike clock := by
  intro a b a' b' n
  rw [checked, heardLately_mapValues, heardLately_mapValues]
  exact h a b a' b' n

theorem detectedPartitions_detect (s : SplitBrainSystem) (i : IterationOrder) (now : TimePoint)
    (clock : NodeId → NodeId → TimePoint) :
    (s.detector.detectNetworkPartitions i now clock).1.detectedPartitions =
      s.detector.detectedPartitions ++
        (pairs ((s.checked now).findConnectedComponents i clock)).map
          fun p => ⟨p.1, p.2, now, none, false⟩ := rfl

/-- What an action leaves in the records: records that were there, perhaps resolved, and
those that a pass of detection adds. -/
theorem mem_detectedPartitions_after {s : SplitBrainSystem} {a : SplitBrainAction}
    {p : NetworkPartition} (hp : p ∈ (s.after a).detector.detectedPartitions) :
    (∃ old ∈ s.detector.detectedPartitions, old.occasion = p.occasion) ∨
      ∃ i now clock, a = .detect i now clock ∧
        ∃ sides ∈ pairs ((s.checked now).findConnectedComponents i clock),
          p.occasion = (sides.1, sides.2, now) := by
  have hchange := change_after s a
  generalize (s.after a).detector = d at hp hchange
  cases hchange with
  | none hsame =>
      rw [hsame.detectedPartitions] at hp
      exact Or.inl ⟨p, hp, rfl⟩
  | addNode nodeId => exact Or.inl ⟨p, hp, rfl⟩
  | removeNode nodeId => exact Or.inl ⟨p, hp, rfl⟩
  | updateNode nodeId hf =>
      rw [detectedPartitions_updateNode] at hp
      exact Or.inl ⟨p, hp, rfl⟩
  | isolateNode nodeId reason =>
      rw [detectedPartitions_isolateNode] at hp
      exact Or.inl ⟨p, hp, rfl⟩
  | restoreNode nodeId =>
      rw [detectedPartitions_restoreNode] at hp
      exact Or.inl ⟨p, hp, rfl⟩
  | forceMerge =>
      rw [detectedPartitions_forceMergePartitions] at hp
      cases hp
  | detect i now clock =>
      rw [detectedPartitions_detect] at hp
      rcases List.mem_append.mp hp with hold | hnew
      · exact Or.inl ⟨p, hold, rfl⟩
      · obtain ⟨sides, hsides, rfl⟩ := List.mem_map.mp hnew
        exact Or.inr ⟨i, now, clock, rfl, sides, hsides, rfl⟩
  | updateRecords now clock hstage =>
      change p ∈ s.detector.detectedPartitions.mapIdx _ at hp
      obtain ⟨k, hk, rfl⟩ := List.mem_mapIdx.mp hp
      refine Or.inl ⟨_, List.getElem_mem hk, ?_⟩
      rw [updatePartition]
      split_ifs <;> rfl

/-- **Partitions are silences.**  In a run in which no node falls silent in the middle of a
pass of detection, a pass tells of partitions iff one of two alive nodes was not heard from
lately, and every record has a side that is such a node alone. -/
theorem partitions_are_silences (run : List SplitBrainAction)
    (hrun : Along after SteadyPass initial run) :
    (∀ earlier i now clock since, run = earlier ++ .detect i now clock :: since →
      let s := earlier.foldl after initial
      let t := s.after (.detect i now clock)
      s.detects = true →
        ((s.step (.detect i now clock)).2 ≠ [] ↔
          ∃ x ∈ t.detector.nodesWith i NodeStatus.isAlive,
            ∃ y ∈ t.detector.nodesWith i NodeStatus.isAlive,
              x ≠ y ∧ s.detector.heardLately (clock x x) x = false)) ∧
    ∀ p ∈ (run.foldl after initial).detector.detectedPartitions, FromSilence run p.occasion := by
  constructor
  · rintro earlier i now clock since rfl s t hdetects
    have hsteady : s.detector.ReadsAlike clock := hrun.at
    have hcan : s.detector.isRunning ∧ s.detection = .idle := by
      rw [detects, Bool.and_eq_true, decide_eq_true_iff] at hdetects
      exact hdetects
    have hstep : s.step (.detect i now clock) = s.detect i now clock := rfl
    have hnodes : t.detector.nodesWith i NodeStatus.isAlive =
        (s.checked now).nodesWith i NodeStatus.isAlive := by
      show (s.step (.detect i now clock)).1.detector.nodesWith i _ = _
      rw [hstep, SplitBrainSystem.detect, if_pos hcan]
      rfl
    have hevents : (s.step (.detect i now clock)).2 ≠ [] ↔
        pairs ((s.checked now).findConnectedComponents i clock) ≠ [] := by
      rw [hstep, SplitBrainSystem.detect, if_pos hcan]
      show List.map _ (List.map _ _) ≠ [] ↔ _
      rw [Ne, List.map_eq_nil_iff, List.map_eq_nil_iff]
      exact Iff.rfl
    rw [hevents, pairs_ne_nil_iff (readsAlike_checked hsteady now) [], hnodes]
    refine exists_congr fun x => and_congr_right fun _ => exists_congr fun y =>
      and_congr_right fun _ => and_congr_right fun _ => ?_
    rw [checked, heardLately_mapValues, hsteady [] [] x x]
  · induction run using List.reverseRecOn with
    | nil => exact fun p hp => by cases hp
    | append_singleton run a ih =>
        obtain ⟨hfront, hlast, -⟩ := along_append.mp hrun
        intro p hp
        rw [List.foldl_append] at hp
        rcases mem_detectedPartitions_after hp with
          ⟨old, hold, heq⟩ | ⟨i, now, clock, rfl, sides, hsides, heq⟩
        · rw [← heq]
          exact (ih hfront old hold).append [a]
        · have hsteady := readsAlike_checked hlast now
          obtain ⟨x, hside, hsilent⟩ := exists_silent_of_mem_pairs hsteady [] hsides
          refine ⟨run, i, now, clock, [], x, rfl, by rw [heq], ?_, ?_⟩
          · rw [heq]
            exact hside
          · rw [hsteady [] [] x x, checked, heardLately_mapValues] at hsilent
            exact hsilent

/-- The record of a run whose only pass reads one time. -/
theorem partitions_are_silences_minorityRun :
    FromSilence minorityRun ([[99]], [[98], [97]], 100000000000) := by
  refine (partitions_are_silences minorityRun ?_).2
    ⟨[[99]], [[98], [97]], 100000000000, none, false⟩ (by decide +kernel)
  refine ⟨trivial, trivial, trivial, trivial, trivial, trivial, trivial, trivial, ?_, trivial,
    trivial⟩
  exact fun _ _ _ _ _ => rfl

end SplitBrainSystem

end QcDatabase
