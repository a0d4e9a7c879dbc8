/-
# The partitions of a network

Both searches of the split-brain detector are the search of `ComponentSearch`:
`find_network_partitions` on the positions of a node list, with the cells of a matrix for
edges, and `find_connected_components` on the ids of the alive nodes, with the connections
that `are_nodes_connected` sees at one clock reading.

So the partitions are the classes of the positions that are joined by pairs `i < j` which the
checker accepts, and the two functions group the alive nodes alike
(`partitionFinding_exact`).
-/
import QcDatabase.Cluster.Quorum
import QcDatabase.Cluster.SplitBrainUtils

open ComponentSearch Relation

namespace QcDatabase

namespace SplitBrainUtils

variable {nodes : List NodeId} {connectivityChecker : NodeId → NodeId → Bool}
  {matrix : List (List Bool)}

/-! ## `find_network_partitions` -/

/-- The positions at which the partitions are found. -/
def partitionPositions (nodes : List NodeId) (matrix : List (List Bool)) : List (List ℕ) :=
  componentsFrom (List.range nodes.length) (cell matrix) (nodes.length + 1)
    (List.range nodes.length) []

theorem searchPartition_eq_search (nodes : List NodeId) (matrix : List (List Bool)) (fuel : ℕ)
    (visited queue component : List ℕ) :
    searchPartition nodes matrix fuel visited queue (component.map (nodeAt nodes))
      = ((search (List.range nodes.length) (cell matrix) fuel visited queue component).1.map
          (nodeAt nodes),
        (search (List.range nodes.length) (cell matrix) fuel visited queue component).2) := by
  induction fuel generalizing visited queue component with
  | zero => rfl
  | succ fuel ih =>
      rcases queue with _ | ⟨current, queue⟩
      · rfl
      · rw [searchPartition, search]
        have hpush : component.map (nodeAt nodes) ++ [nodeAt nodes current]
            = (component ++ [current]).map (nodeAt nodes) := by simp
        rw [hpush]
        exact ih _ _ _

/-- The search of `find_network_partitions` ends: more rounds than positions that are not visited
or wait in the queue change nothing. -/
theorem searchPartition_add {fuel : ℕ} {visited queue : List ℕ}
    (h : unvisited (List.range nodes.length) visited + queue.length ≤ fuel) (component : List ℕ)
    (k : ℕ) : searchPartition nodes matrix (fuel + k) visited queue (component.map (nodeAt nodes))
      = searchPartition nodes matrix fuel visited queue (component.map (nodeAt nodes)) := by
  rw [searchPartition_eq_search, searchPartition_eq_search, search_add h]

theorem partitionsFrom_eq_map (is visited : List ℕ) :
    partitionsFrom nodes matrix is visited
      = (componentsFrom (List.range nodes.length) (cell matrix) (nodes.length + 1) is visited).map
          (List.map (nodeAt nodes)) := by
  induction is generalizing visited with
  | nil => rfl
  | cons i is ih =>
      rw [partitionsFrom, componentsFrom]
      split_ifs with hvisited
      · exact ih visited
      · have hsearch := searchPartition_eq_search nodes matrix (nodes.length + 1) (visited ++ [i])
          [i] []
        rw [List.map_nil] at hsearch
        rw [hsearch]
        exact congrArg _ (ih _)

/-- The partitions are the nodes at the positions of a search. -/
theorem findNetworkPartitions_eq_map : findNetworkPartitions nodes matrix
    = (partitionPositions nodes matrix).map (List.map (nodeAt nodes)) :=
  partitionsFrom_eq_map _ _

/-- A pair `i < j` of positions that the checker accepts. -/
def AcceptedPair (nodes : List NodeId) (connectivityChecker : NodeId → NodeId → Bool)
    (i j : ℕ) : Prop :=
  i < j ∧ j < nodes.length ∧ connectivityChecker (nodeAt nodes i) (nodeAt nodes j) = true

/-- The positions are joined by a path of accepted pairs, each taken in either direction. -/
def Joined (nodes : List NodeId) (connectivityChecker : NodeId → NodeId → Bool) : ℕ → ℕ → Prop :=
  ReflTransGen fun i j =>
    AcceptedPair nodes connectivityChecker i j ∨ AcceptedPair nodes connectivityChecker j i

/-- An edge of the search leads nowhere or along an accepted pair. -/
theorem edge_calculateConnectivityMatrix_iff {a b : ℕ} :
    Edge (List.range nodes.length) (cell (calculateConnectivityMatrix nodes connectivityChecker))
        a b ↔
      a < nodes.length ∧ a = b ∨ AcceptedPair nodes connectivityChecker a b
        ∨ AcceptedPair nodes connectivityChecker b a := by
  rw [Edge, List.mem_range, List.mem_range, cell_calculateConnectivityMatrix, entry, link,
    Bool.and_eq_true, Bool.or_eq_true, decide_eq_true_iff, decide_eq_true_iff, AcceptedPair,
    AcceptedPair]
  -- the cell is filled from the pair in ascending order
  rcases Nat.lt_trichotomy a b with hab | rfl | hab
  · rw [min_eq_left hab.le, max_eq_right hab.le]
    constructor
    · rintro ⟨-, hb, -, heq | hlink⟩
      · exact absurd heq hab.ne
      · exact Or.inr (Or.inl ⟨hab, hb, hlink⟩)
    · rintro (⟨-, heq⟩ | ⟨-, hb, hlink⟩ | ⟨hba, -⟩)
      · exact absurd heq hab.ne
      · exact ⟨hab.trans hb, hb, hb, Or.inr hlink⟩
      · exact absurd hba hab.asymm
  · rw [max_self]
    simp
  · rw [min_eq_right hab.le, max_eq_left hab.le]
    constructor
    · rintro ⟨ha, -, -, heq | hlink⟩
      · exact absurd heq hab.ne'
      · exact Or.inr (Or.inr ⟨hab, ha, hlink⟩)
    · rintro (⟨-, heq⟩ | ⟨hba, -⟩ | ⟨-, ha, hlink⟩)
      · exact absurd heq hab.ne'
      · exact absurd hba hab.asymm
      · exact ⟨ha, hab.trans ha, ha, Or.inr hlink⟩

theorem reflTransGen_edge_iff_joined {a b : ℕ} :
    ReflTransGen (Edge (List.range nodes.length)
        (cell (calculateConnectivityMatrix nodes connectivityChecker))) a b ↔
      Joined nodes connectivityChecker a b := by
  constructor
  · refine ReflTransGen.lift' id (fun a b hedge => ?_) a b
    rcases edge_calculateConnectivityMatrix_iff.mp hedge with ⟨-, rfl⟩ | hpair
    · exact ReflTransGen.refl
    · exact ReflTransGen.single hpair
  · refine ReflTransGen.mono (fun a b hpair => ?_) a b
    exact edge_calculateConnectivityMatrix_iff.mpr (Or.inr hpair)

/-- **The partitions group the positions that accepted pairs join.** -/
theorem isGrouping_partitionPositions (nodes : List NodeId)
    (connectivityChecker : NodeId → NodeId → Bool) :
    IsGrouping (List.range nodes.length) (Joined nodes connectivityChecker)
      (partitionPositions nodes (calculateConnectivityMatrix nodes connectivityChecker)) := by
  refine (isGrouping_componentsFrom ?_ List.nodup_range ?_).congr ?_
  · intro a _ b _ hcell
    rw [cell_calculateConnectivityMatrix, entry] at hcell ⊢
    rwa [max_comm, min_comm, decide_eq_decide.mpr eq_comm]
  · rw [List.length_range]
    exact Nat.le_succ _
  · exact fun _ _ _ _ => reflTransGen_edge_iff_joined

theorem map_nodeAt_range (nodes : List NodeId) :
    (List.range nodes.length).map (nodeAt nodes) = nodes := by
  refine List.ext_getElem (by simp) fun i hi hi' => ?_
  rw [List.getElem_map, List.getElem_range, nodeAt, List.getD_eq_getElem _ _ hi']

theorem idxOf_nodeAt (hnodup : nodes.Nodup) {i : ℕ} (hi : i < nodes.length) :
    nodes.idxOf (nodeAt nodes i) = i := by
  rw [nodeAt, List.getD_eq_getElem _ _ hi]
  exact hnodup.idxOf_getElem i hi

theorem nodeAt_idxOf {id : NodeId} (hid : id ∈ nodes) : nodeAt nodes (nodes.idxOf id) = id := by
  rw [nodeAt, List.getD_eq_getElem _ _ (List.idxOf_lt_length_of_mem hid)]
  exact List.getElem_idxOf _

theorem nodeAt_mem {i : ℕ} (hi : i < nodes.length) : nodeAt nodes i ∈ nodes := by
  rw [nodeAt, List.getD_eq_getElem _ _ hi]
  exact List.getElem_mem hi

/-- Paths of positions are paths of nodes where the checker is symmetric. -/
theorem joined_iff_reflTransGen (hnodup : nodes.Nodup)
    (hsymm : ∀ x y, connectivityChecker x y = true → connectivityChecker y x = true) {i j : ℕ}
    (hi : i < nodes.length) (hj : j < nodes.length) :
    Joined nodes connectivityChecker i j ↔
      ReflTransGen (Edge nodes connectivityChecker) (nodeAt nodes i) (nodeAt nodes j) := by
  constructor
  · refine ReflTransGen.lift (nodeAt nodes) (fun a b hpair => ?_) i j
    rcases hpair with ⟨hab, hb, hcheck⟩ | ⟨hba, ha, hcheck⟩
    · exact ⟨nodeAt_mem (hab.trans hb), nodeAt_mem hb, hcheck⟩
    · exact ⟨nodeAt_mem ha, nodeAt_mem (hba.trans ha), hsymm _ _ hcheck⟩
  · intro hpath
    rw [← idxOf_nodeAt hnodup hi, ← idxOf_nodeAt hnodup hj]
    refine ReflTransGen.lift' nodes.idxOf (fun x y hedge => ?_) _ _ hpath
    obtain ⟨hx, hy, hcheck⟩ := hedge
    show Joined nodes connectivityChecker (nodes.idxOf x) (nodes.idxOf y)
    rcases Nat.lt_trichotomy (nodes.idxOf x) (nodes.idxOf y) with hlt | heq | hgt
    · refine ReflTransGen.single (Or.inl ⟨hlt, List.idxOf_lt_length_of_mem hy, ?_⟩)
      rwa [nodeAt_idxOf hx, nodeAt_idxOf hy]
    · rw [heq]
      exact ReflTransGen.refl
    · refine ReflTransGen.single (Or.inr ⟨hgt, List.idxOf_lt_length_of_mem hx, ?_⟩)
      rw [nodeAt_idxOf hx, nodeAt_idxOf hy]
      exact hsymm _ _ hcheck

/-- Where the nodes are distinct, the partitions group the nodes themselves. -/
theorem isGrouping_findNetworkPartitions (hnodup : nodes.Nodup)
    (hsymm : ∀ x y, connectivityChecker x y = true → connectivityChecker y x = true) :
    IsGrouping nodes (ReflTransGen (Edge nodes connectivityChecker))
      (findNetworkPartitions nodes (calculateConnectivityMatrix nodes connectivityChecker)) := by
  have hmap : IsGrouping ((List.range nodes.length).map (nodeAt nodes))
      (ReflTransGen (Edge nodes connectivityChecker))
      ((partitionPositions nodes (calculateConnectivityMatrix nodes connectivityChecker)).map
        (List.map (nodeAt nodes))) := by
    refine (isGrouping_partitionPositions nodes connectivityChecker).map ?_ ?_
    · intro a ha b hb heq
      rw [← idxOf_nodeAt hnodup (List.mem_range.mp ha), heq,
        idxOf_nodeAt hnodup (List.mem_range.mp hb)]
    · exact fun a ha b hb =>
        joined_iff_reflTransGen hnodup hsymm (List.mem_range.mp ha) (List.mem_range.mp hb)
  rwa [map_nodeAt_range, ← findNetworkPartitions_eq_map] at hmap

end SplitBrainUtils

namespace DefaultSplitBrainDetector

variable (d : DefaultSplitBrainDetector) (i : IterationOrder) (clock : NodeId → NodeId → TimePoint)

/-! ## `find_connected_components` -/

/-- What the search sees of the connections. -/
def connected (a b : NodeId) : Bool := d.areNodesConnected a b (clock a b)

theorem foundFrom_eq_found (visited : List NodeId) (current : NodeId) :
    d.foundFrom i clock visited current
      = found (d.nodesWith i NodeStatus.isAlive) (d.connected clock) visited current := by
  rw [foundFrom, found, nodesWith, List.filter_map, List.filter_filter]
  refine congrArg _ (List.filter_congr fun entry _ => ?_)
  rw [Bool.eq_iff_iff, Function.comp_apply, connected]
  simp only [Bool.and_eq_true, decide_eq_true_iff]
  exact and_right_comm

theorem searchComponent_eq_search (fuel : ℕ) (visited queue component : List NodeId) :
    d.searchComponent i clock fuel visited queue component
      = search (d.nodesWith i NodeStatus.isAlive) (d.connected clock) fuel visited queue
          component := by
  induction fuel generalizing visited queue component with
  | zero => rfl
  | succ fuel ih =>
      rcases queue with _ | ⟨current, queue⟩
      · rfl
      · rw [searchComponent, search, foundFrom_eq_found]
        exact ih _ _ _

theorem unvisited_nodesWith_le (visited : List NodeId) :
    ComponentSearch.unvisited (d.nodesWith i NodeStatus.isAlive) visited ≤ d.unvisited visited := by
  have hsublist : (d.nodesWith i NodeStatus.isAlive).Sublist
      ((i.order d.nodes.entries).map Sigma.fst) :=
    List.filter_sublist.map Sigma.fst
  have hperm : ((i.order d.nodes.entries).map Sigma.fst).Perm d.nodes.keys :=
    (i.perm d.nodes.entries).map Sigma.fst
  calc ComponentSearch.unvisited (d.nodesWith i NodeStatus.isAlive) visited
      ≤ ComponentSearch.unvisited ((i.order d.nodes.entries).map Sigma.fst) visited :=
        (hsublist.filter _).length_le
    _ = ComponentSearch.unvisited d.nodes.keys visited := (hperm.filter _).length_eq
    _ = d.unvisited visited :=
        congrArg List.length (List.filter_congr fun _ _ => decide_eq_decide.mpr Iff.rfl)

/-- The search of `find_connected_components` ends: more rounds than nodes that are not visited
or wait in the queue change nothing. -/
theorem searchComponent_add {fuel : ℕ} {visited queue : List NodeId}
    (h : d.unvisited visited + queue.length ≤ fuel) (component : List NodeId) (k : ℕ) :
    d.searchComponent i clock (fuel + k) visited queue component
      = d.searchComponent i clock fuel visited queue component := by
  rw [searchComponent_eq_search, searchComponent_eq_search]
  exact search_add ((Nat.add_le_add_right (d.unvisited_nodesWith_le i visited) _).trans h) _ _

/-- Only nodes that are alive start a search. -/
theorem componentsFrom_eq (entries : List (Sigma fun _ : NodeId => NodeStatus))
    (visited : List NodeId) :
    d.componentsFrom i clock entries visited
      = ComponentSearch.componentsFrom (d.nodesWith i NodeStatus.isAlive) (d.connected clock)
          (d.nodes.entries.length + 1)
          ((entries.filter fun entry => entry.2.isAlive).map Sigma.fst) visited := by
  induction entries generalizing visited with
  | nil => rfl
  | cons entry entries ih =>
      obtain ⟨nodeId, status⟩ := entry
      rw [componentsFrom, List.filter_cons]
      cases halive : status.isAlive with
      | false =>
          rw [if_neg (by simp), if_neg (by simp)]
          exact ih visited
      | true =>
          rw [if_pos rfl, List.map_cons, ComponentSearch.componentsFrom]
          by_cases hvisited : nodeId ∉ visited
          · rw [if_pos ⟨hvisited, rfl⟩, if_pos hvisited, searchComponent_eq_search]
            exact congrArg _ (ih _)
          · rw [if_neg fun hnew => hvisited hnew.1, if_neg hvisited]
            exact ih visited

theorem areNodesConnected_comm (a b : NodeId) (now : TimePoint) :
    d.areNodesConnected a b now = d.areNodesConnected b a now := by
  rw [areNodesConnected, areNodesConnected]
  rcases d.nodes.lookup a with _ | status₁ <;> rcases d.nodes.lookup b with _ | status₂
  · rfl
  · rfl
  · rfl
  · exact Bool.and_comm _ _

theorem areNodesConnected_symm {a b : NodeId} {now : TimePoint}
    (h : d.areNodesConnected a b now = true) : d.areNodesConnected b a now = true :=
  (d.areNodesConnected_comm b a now).trans h

/-- **The components group the alive nodes that connections join**, where the clock is read
once. -/
theorem isGrouping_findConnectedComponents (now : TimePoint) :
    IsGrouping (d.nodesWith i NodeStatus.isAlive)
      (ReflTransGen (Edge (d.nodesWith i NodeStatus.isAlive)
        fun a b => d.areNodesConnected a b now))
      (d.findConnectedComponents i fun _ _ => now) := by
  rw [findConnectedComponents, componentsFrom_eq]
  refine isGrouping_componentsFrom (fun a _ b _ => d.areNodesConnected_symm)
    (d.nodup_nodesWith i NodeStatus.isAlive) ?_
  rw [nodesWith, List.length_map, ← (i.perm d.nodes.entries).length_eq]
  exact (List.length_filter_le _ _).trans (Nat.le_succ _)

end DefaultSplitBrainDetector

open SplitBrainUtils

/-- **Partition finding is exact**: the partitions are the classes of the positions that
accepted pairs join, and the components of the alive nodes are the partitions of their list. -/
theorem partitionFinding_exact (nodes : List NodeId)
    (connectivityChecker : NodeId → NodeId → Bool) (d : DefaultSplitBrainDetector)
    (i j : IterationOrder) (now : TimePoint) :
    findNetworkPartitions nodes (calculateConnectivityMatrix nodes connectivityChecker)
        = (partitionPositions nodes (calculateConnectivityMatrix nodes connectivityChecker)).map
            (List.map (nodeAt nodes)) ∧
      IsGrouping (List.range nodes.length) (Joined nodes connectivityChecker)
        (partitionPositions nodes (calculateConnectivityMatrix nodes connectivityChecker)) ∧
      SameGrouping (d.findConnectedComponents i fun _ _ => now)
        (findNetworkPartitions (d.nodesWith j NodeStatus.isAlive)
          (calculateConnectivityMatrix (d.nodesWith j NodeStatus.isAlive)
            fun a b => d.areNodesConnected a b now)) := by
  refine ⟨findNetworkPartitions_eq_map, isGrouping_partitionPositions nodes connectivityChecker, ?_⟩
  have hperm : (d.nodesWith i NodeStatus.isAlive).Perm (d.nodesWith j NodeStatus.isAlive) :=
    (d.nodesWith_perm i _).trans (d.nodesWith_perm j _).symm
  refine (d.isGrouping_findConnectedComponents i now).sameGrouping
    (isGrouping_findNetworkPartitions (d.nodup_nodesWith j _) fun _ _ => d.areNodesConnected_symm)
    hperm (d.nodup_nodesWith i _) ?_
  -- the two lists of alive nodes have the same members
  have hedge : Edge (d.nodesWith i NodeStatus.isAlive) (fun a b => d.areNodesConnected a b now)
      = Edge (d.nodesWith j NodeStatus.isAlive) fun a b => d.areNodesConnected a b now := by
    funext a b
    rw [Edge, Edge, hperm.mem_iff, hperm.mem_iff]
  intro a _ b _
  rw [hedge]

end QcDatabase
