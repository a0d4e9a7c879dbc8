/-
# Quorums of the two sides of a partition

`calculate_quorum` looks at the ids that the detector knows and at those among them
that are alive and not isolated, its live nodes; the answer is a matter of these two
sets (`hasQuorum_calculateQuorum_iff`).  Two detectors of one configuration that know
the same ids but have no live node in common are the two sides of a partition.

The majority strategy gives at most one of them a quorum.  The size that the static and
the dynamic strategy ask for does not depend on the number of nodes: the dynamic one,
half of the nodes that are alive, is reached by any nodes that are alive.  Nor does the
number of witnesses.  `Separates` says of a configuration and a membership that no two
sides can both have a quorum.
-/
import QcDatabase.Cluster.SplitBrainDetector
import QcDatabase.Lib.QuorumSets

open QuorumSets

namespace QcDatabase

/-- The live nodes are a quorum of the membership. -/
def SplitBrainConfig.IsQuorum (config : SplitBrainConfig) (members live : Finset NodeId) : Prop :=
  match config.quorumStrategy with
  | .majority => members.card / 2 + 1 ≤ live.card
  | .staticQuorum => config.minQuorumSize ≤ live.card
  | .dynamicQuorum => config.minQuorumSize ≤ live.card
  | .witnessBased => config.minQuorumSize ≤ live.card ∧ ∃ w ∈ live, w ∈ config.witnessNodes

/-- Quorums of the membership exclude each other. -/
def SplitBrainConfig.Separates (config : SplitBrainConfig) (members : Finset NodeId) : Prop :=
  match config.quorumStrategy with
  | .majority => True
  | .staticQuorum => members.card < 2 * config.minQuorumSize
  | .dynamicQuorum => members.card < 2 * config.minQuorumSize
  | .witnessBased => members.card < 2 * config.minQuorumSize ∨
      (members ∩ config.witnessNodes.toFinset).card ≤ 1

theorem SplitBrainConfig.exclusive_isQuorum_iff (config : SplitBrainConfig)
    (members : Finset NodeId) :
    Exclusive members (config.IsQuorum members) ↔ config.Separates members := by
  unfold SplitBrainConfig.IsQuorum SplitBrainConfig.Separates
  rcases config.quorumStrategy with _ | _ | _ | _
  · dsimp only
    exact iff_of_true (exclusive_of_card_lt (by omega)) trivial
  · exact exclusive_card_iff
  · exact exclusive_card_iff
  · have hwitnesses : members.filter (· ∈ config.witnessNodes)
        = members ∩ config.witnessNodes.toFinset := by
      ext id
      rw [Finset.mem_filter, Finset.mem_inter, List.mem_toFinset]
    rw [← hwitnesses]
    exact exclusive_witness_iff

namespace DefaultSplitBrainDetector

variable (d : DefaultSplitBrainDetector) (i : IterationOrder)

/-- The ids in `nodes_`. -/
def members : Finset NodeId := d.nodes.keys.toFinset

/-- The ids of the nodes that are alive and not isolated. -/
def liveNodes : Finset NodeId := (d.nodesWith .listed NodeStatus.isLive).toFinset

/-! ## The nodes that are counted -/

theorem nodesWith_perm (p : NodeStatus → Bool) :
    (d.nodesWith i p).Perm (d.nodesWith .listed p) :=
  ((i.perm d.nodes.entries).filter _).map _

theorem nodup_nodesWith (p : NodeStatus → Bool) : (d.nodesWith i p).Nodup := by
  rw [(d.nodesWith_perm i p).nodup_iff]
  exact List.Nodup.sublist (List.filter_sublist.map Sigma.fst) d.nodes.nodupKeys

theorem mem_nodesWith {p : NodeStatus → Bool} {id : NodeId} :
    id ∈ d.nodesWith i p ↔ ∃ status, d.nodes.lookup id = some status ∧ p status := by
  rw [nodesWith, List.mem_map]
  constructor
  · rintro ⟨⟨key, status⟩, hentry, rfl⟩
    rw [List.mem_filter, IterationOrder.mem_order] at hentry
    exact ⟨status, AList.mem_lookup_iff.mpr hentry.1, hentry.2⟩
  · rintro ⟨status, hstatus, hp⟩
    refine ⟨⟨id, status⟩, List.mem_filter.mpr ⟨?_, hp⟩, rfl⟩
    rw [IterationOrder.mem_order]
    exact AList.mem_lookup_iff.mp hstatus

theorem mem_nodesWith_isLive {id : NodeId} :
    id ∈ d.nodesWith i NodeStatus.isLive ↔ id ∈ d.liveNodes := by
  rw [liveNodes, List.mem_toFinset]
  exact (d.nodesWith_perm i NodeStatus.isLive).mem_iff

theorem mem_liveNodes {id : NodeId} :
    id ∈ d.liveNodes ↔ ∃ status, d.nodes.lookup id = some status ∧ status.isLive := by
  rw [← d.mem_nodesWith_isLive .listed, mem_nodesWith]

theorem length_nodesWith_isLive : (d.nodesWith i NodeStatus.isLive).length = d.liveNodes.card := by
  rw [liveNodes, List.toFinset_card_of_nodup (d.nodup_nodesWith .listed NodeStatus.isLive)]
  exact (d.nodesWith_perm i NodeStatus.isLive).length_eq

theorem length_entries : d.nodes.entries.length = d.members.card := by
  rw [members, AList.keys, List.toFinset_card_of_nodup d.nodes.nodupKeys, List.keys, List.length_map]

theorem liveNodes_subset_members : d.liveNodes ⊆ d.members := by
  intro id hid
  obtain ⟨status, hstatus, -⟩ := d.mem_liveNodes.mp hid
  exact List.mem_toFinset.mpr (UnorderedMap.mem_of_lookup hstatus)

/-- **The answer of `calculate_quorum` is whether the live nodes are a quorum of the
membership.** -/
theorem hasQuorum_calculateQuorum_iff :
    (d.calculateQuorum i).hasQuorum = true ↔ d.config.IsQuorum d.members d.liveNodes := by
  unfold calculateQuorum SplitBrainConfig.IsQuorum
  rcases d.config.quorumStrategy with _ | _ | _ | _
  · dsimp only [majorityQuorum]
    rw [decide_eq_true_iff, length_nodesWith_isLive, length_entries]
  · dsimp only [staticQuorum]
    rw [decide_eq_true_iff, length_nodesWith_isLive]
  · -- half of the live nodes are no more than the live nodes
    dsimp only [dynamicQuorum]
    rw [decide_eq_true_iff, length_nodesWith_isLive, max_le_iff]
    exact and_iff_left (by omega)
  · dsimp only [witnessBasedQuorum]
    rw [Bool.and_eq_true, decide_eq_true_iff, length_nodesWith_isLive, and_comm]
    refine and_congr_right fun _ => ?_
    rw [Bool.not_eq_true', List.isEmpty_eq_false_iff_exists_mem]
    refine exists_congr fun w => ?_
    rw [List.mem_filter, decide_eq_true_iff, mem_nodesWith_isLive]

/-! ## Two sides -/

/-- Detectors of this configuration and membership without a common live node do not both
have a quorum. -/
def QuorumExclusive (config : SplitBrainConfig) (ids : Finset NodeId) : Prop :=
  ∀ (d e : DefaultSplitBrainDetector) (i j : IterationOrder),
    d.config = config → e.config = config → d.members = ids → e.members = ids →
    Disjoint d.liveNodes e.liveNodes →
    ¬ ((d.calculateQuorum i).hasQuorum = true ∧ (e.calculateQuorum j).hasQuorum = true)

/-- A detector that knows the ids and takes those of `live` for alive. -/
def side (config : SplitBrainConfig) (ids : List NodeId) (hnodup : ids.Nodup)
    (live : Finset NodeId) : DefaultSplitBrainDetector :=
  { create with
    config := config
    nodes :=
      ⟨ids.map fun id => ⟨id, { NodeStatus.create id with isAlive := decide (id ∈ live) }⟩, by
        rw [List.NodupKeys, List.keys, List.map_map]
        exact (List.map_id ids).symm ▸ hnodup⟩ }

section

variable (config : SplitBrainConfig) {ids : List NodeId} (hnodup : ids.Nodup) (live : Finset NodeId)

theorem members_side : (side config ids hnodup live).members = ids.toFinset := by
  ext id
  rw [members, List.mem_toFinset]
  simp [side, AList.keys, List.keys]

theorem liveNodes_side (hlive : live ⊆ ids.toFinset) :
    (side config ids hnodup live).liveNodes = live := by
  ext id
  rw [← mem_nodesWith_isLive _ .listed]
  simp only [nodesWith, side, IterationOrder.listed, List.mem_map, List.mem_filter]
  constructor
  · rintro ⟨_, ⟨⟨_, -, rfl⟩, halive⟩, rfl⟩
    simpa [NodeStatus.isLive, NodeStatus.create] using halive
  · intro hid
    exact ⟨_, ⟨⟨id, List.mem_toFinset.mp (hlive hid), rfl⟩,
      by simpa [NodeStatus.isLive, NodeStatus.create] using hid⟩, rfl⟩

end

theorem exists_side (config : SplitBrainConfig) {ids live : Finset NodeId} (hlive : live ⊆ ids) :
    ∃ d : DefaultSplitBrainDetector, d.config = config ∧ d.members = ids ∧ d.liveNodes = live := by
  refine ⟨side config ids.toList ids.nodup_toList live, rfl, ?_, ?_⟩
  · rw [members_side, Finset.toList_toFinset]
  · rw [liveNodes_side]
    rwa [Finset.toList_toFinset]

/-- **The two sides of a partition never both have a quorum, exactly where quorums exclude
each other.** -/
theorem quorumExclusive_iff_separates (config : SplitBrainConfig) (ids : Finset NodeId) :
    QuorumExclusive config ids ↔ config.Separates ids := by
  rw [← config.exclusive_isQuorum_iff ids]
  constructor
  · rintro h s t hs ht hdisjoint ⟨hqs, hqt⟩
    obtain ⟨d, hdconfig, hdids, rfl⟩ := exists_side config hs
    obtain ⟨e, heconfig, heids, rfl⟩ := exists_side config ht
    refine h d e .listed .listed hdconfig heconfig hdids heids hdisjoint ⟨?_, ?_⟩
    · rwa [hasQuorum_calculateQuorum_iff, hdconfig, hdids]
    · rwa [hasQuorum_calculateQuorum_iff, heconfig, heids]
  · rintro h d e i j rfl hconfig rfl hmembers hdisjoint ⟨hd, he⟩
    rw [hasQuorum_calculateQuorum_iff] at hd he
    rw [hconfig, hmembers] at he
    exact h d.liveNodes e.liveNodes d.liveNodes_subset_members
      (hmembers ▸ e.liveNodes_subset_members) hdisjoint ⟨hd, he⟩

/-- Four nodes and the default minimum of two: a partition in halves. -/
theorem not_quorumExclusive_static :
    ¬ QuorumExclusive { SplitBrainConfig.default with quorumStrategy := .staticQuorum }
      {[97], [98], [99], [100]} := by
  intro h
  let config : SplitBrainConfig :=
    { SplitBrainConfig.default with quorumStrategy := .staticQuorum }
  let d := (((create.updateConfig config).addNode [97]).addNode [98]).addNode [99] |>.addNode [100]
  let left := (d.processHeartbeat [97] [] 0).processHeartbeat [98] [] 0
  let right := (d.processHeartbeat [99] [] 0).processHeartbeat [100] [] 0
  exact h left right .listed .listed rfl rfl (by decide) (by decide) (by decide) (by decide)

end DefaultSplitBrainDetector

end QcDatabase
