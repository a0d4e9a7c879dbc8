/-
# Functions on node lists (`split_brain_utils` in `src/cluster/split_brain_detector.cpp`)

`calculateConnectivityMatrix` fills a matrix by asking a checker about every pair of
positions `i < j`; `findNetworkPartitions` searches the positions of such a matrix breadth
first, as `ComponentSearch` does, and returns the nodes at the positions it meets.
`validateQuorumDecision` counts the nodes of a decision and looks for duplicates.
-/
import Mathlib.Data.List.GetD
import QcDatabase.Cluster.SplitBrainDetector
import QcDatabase.Lib.ComponentSearch

namespace QcDatabase

namespace SplitBrainUtils

/-! ## The connectivity matrix -/

/-- `nodes[i]`. -/
def nodeAt (nodes : List NodeId) (i : ℕ) : NodeId := nodes.getD i []

/-- `matrix[i][j]`. -/
def cell (matrix : List (List Bool)) (i j : ℕ) : Bool := (matrix.getD i []).getD j false

/-- `matrix[i][j] = value`. -/
def setCell (matrix : List (List Bool)) (i j : ℕ) (value : Bool) : List (List Bool) :=
  matrix.modify i fun row => row.set j value

/-- The inner loop of `calculate_connectivity_matrix`, over the positions `js`. -/
def connectPairs (nodes : List NodeId) (connectivityChecker : NodeId → NodeId → Bool) (i : ℕ)
    (js : List ℕ) (matrix : List (List Bool)) : List (List Bool) :=
  js.foldl (fun matrix j =>
    let connected := connectivityChecker (nodeAt nodes i) (nodeAt nodes j)
    setCell (setCell matrix i j connected) j i connected) matrix

/-- The outer loop of `calculate_connectivity_matrix`, over the positions `is`. -/
def connectRows (nodes : List NodeId) (connectivityChecker : NodeId → NodeId → Bool)
    (is : List ℕ) (matrix : List (List Bool)) : List (List Bool) :=
  is.foldl (fun matrix i =>
    connectPairs nodes connectivityChecker i (List.range' (i + 1) (nodes.length - (i + 1)))
      (setCell matrix i i true)) matrix

/-- `calculate_connectivity_matrix`. -/
def calculateConnectivityMatrix (nodes : List NodeId)
    (connectivityChecker : NodeId → NodeId → Bool) : List (List Bool) :=
  connectRows nodes connectivityChecker (List.range nodes.length)
    (List.replicate nodes.length (List.replicate nodes.length false))

/-! ## Partitions -/

/-- The `while` loop of `find_network_partitions`: the partition and the visited positions. -/
def searchPartition (nodes : List NodeId) (matrix : List (List Bool)) :
    ℕ → List ℕ → List ℕ → List NodeId → List NodeId × List ℕ
  | 0, visited, _, partition => (partition, visited)
  | _ + 1, visited, [], partition => (partition, visited)
  | fuel + 1, visited, current :: queue, partition =>
      let new := (List.range nodes.length).filter fun j =>
        decide (j ∉ visited) && cell matrix current j
      searchPartition nodes matrix fuel (visited ++ new) (queue ++ new)
        (partition ++ [nodeAt nodes current])

/-- The `for` loop of `find_network_partitions`. -/
def partitionsFrom (nodes : List NodeId) (matrix : List (List Bool)) :
    List ℕ → List ℕ → List (List NodeId)
  | [], _ => []
  | i :: is, visited =>
      if i ∉ visited then
        -- every round visits one position of the queue
        let (partition, visited) :=
          searchPartition nodes matrix (nodes.length + 1) (visited ++ [i]) [i] []
        partition :: partitionsFrom nodes matrix is visited
      else partitionsFrom nodes matrix is visited

/-- `find_network_partitions`. -/
def findNetworkPartitions (nodes : List NodeId) (connectivityMatrix : List (List Bool)) :
    List (List NodeId) :=
  partitionsFrom nodes connectivityMatrix (List.range nodes.length) []

/-! ## Decisions -/

/-- One of the loops of `validate_quorum_decision`: the nodes accounted for after it, or
`none` at a node that was accounted for before. -/
def accountFor (allAccounted : List NodeId) : List NodeId → Option (List NodeId)
  | [] => some allAccounted
  | node :: nodes =>
      if allAccounted.contains node then none else accountFor (node :: allAccounted) nodes

/-- `validate_quorum_decision`. -/
def validateQuorumDecision (decision : QuorumDecision) (allNodes : List NodeId) : Bool :=
  let totalAccounted := decision.activeNodes.length + decision.isolatedNodes.length
  if totalAccounted ≠ allNodes.length then false
  else
    match accountFor [] decision.activeNodes with
    | none => false
    | some allAccounted => (accountFor allAccounted decision.isolatedNodes).isSome

/-! ## The cells of the matrix -/

/-- The first `n` rows have `n` cells. -/
def HasRows (n : ℕ) (matrix : List (List Bool)) : Prop :=
  ∀ i < n, (matrix.getD i []).length = n

section

variable {nodes : List NodeId} {connectivityChecker : NodeId → NodeId → Bool} {n i j a b : ℕ}
  {matrix : List (List Bool)} {value : Bool}

theorem getD_setCell : (setCell matrix i j value).getD a []
    = if a = i then (matrix.getD a []).set j value else matrix.getD a [] := by
  rw [setCell, List.getD_eq_getElem?_getD, List.getD_eq_getElem?_getD, List.getElem?_modify]
  by_cases hai : a = i
  · subst hai
    cases matrix[a]? <;> simp
  · cases matrix[a]? <;> simp [hai, Ne.symm hai]

theorem HasRows.setCell (h : HasRows n matrix) (i j : ℕ) (value : Bool) :
    HasRows n (setCell matrix i j value) := by
  intro a ha
  rw [getD_setCell]
  split_ifs
  · rw [List.length_set, h a ha]
  · exact h a ha

theorem cell_setCell (h : HasRows n matrix) (hi : i < n) (hj : j < n) :
    cell (setCell matrix i j value) a b
      = if a = i ∧ b = j then value else cell matrix a b := by
  rw [cell, getD_setCell]
  by_cases hai : a = i
  · subst hai
    rw [if_pos rfl, List.getD_eq_getElem?_getD, List.getElem?_set, h a hi]
    by_cases hbj : b = j
    · subst hbj
      rw [if_pos rfl, if_pos hj, if_pos ⟨rfl, rfl⟩, Option.getD_some]
    · rw [if_neg (Ne.symm hbj), if_neg fun hab => hbj hab.2]
      exact List.getD_eq_getElem?_getD.symm
  · rw [if_neg hai, if_neg fun hab => hai hab.1, cell]

/-- What the checker says about two positions. -/
def link (nodes : List NodeId) (connectivityChecker : NodeId → NodeId → Bool) (i j : ℕ) : Bool :=
  connectivityChecker (nodeAt nodes i) (nodeAt nodes j)

theorem connectPairs_spec (nodes : List NodeId) (connectivityChecker : NodeId → NodeId → Bool)
    {js : List ℕ} (hi : i < n) (hjs : ∀ j ∈ js, j < n ∧ j ≠ i)
    (h : HasRows n matrix) :
    HasRows n (connectPairs nodes connectivityChecker i js matrix) ∧
      ∀ a b, cell (connectPairs nodes connectivityChecker i js matrix) a b
        = if a = i ∧ b ∈ js then link nodes connectivityChecker i b
          else if b = i ∧ a ∈ js then link nodes connectivityChecker i a else cell matrix a b := by
  induction js generalizing matrix with
  | nil => exact ⟨h, fun a b => by simp [connectPairs]⟩
  | cons j js ih =>
      obtain ⟨hj, hji⟩ := hjs j List.mem_cons_self
      have hset := h.setCell i j (link nodes connectivityChecker i j)
      obtain ⟨hrows, hcell⟩ := ih (fun j hj => hjs j (List.mem_cons_of_mem _ hj))
        (hset.setCell j i (link nodes connectivityChecker i j))
      refine ⟨hrows, fun a b => (hcell a b).trans ?_⟩
      rw [cell_setCell hset hj hi, cell_setCell h hi hj]
      grind

/-- The entry of the matrix for two positions. -/
def entry (nodes : List NodeId) (connectivityChecker : NodeId → NodeId → Bool) (a b : ℕ) : Bool :=
  decide (a = b) || link nodes connectivityChecker (min a b) (max a b)

/-- A round of the outer loop fills the cells whose smaller index is `i`. -/
theorem connectRow_spec (connectivityChecker : NodeId → NodeId → Bool) (hi : i < nodes.length)
    (h : HasRows nodes.length matrix) :
    HasRows nodes.length (connectPairs nodes connectivityChecker i
        (List.range' (i + 1) (nodes.length - (i + 1))) (setCell matrix i i true)) ∧
      ∀ a b, cell (connectPairs nodes connectivityChecker i
          (List.range' (i + 1) (nodes.length - (i + 1))) (setCell matrix i i true)) a b
        = if min a b = i ∧ max a b < nodes.length then entry nodes connectivityChecker a b
          else cell matrix a b := by
  have hmem : ∀ j, j ∈ List.range' (i + 1) (nodes.length - (i + 1)) ↔ i < j ∧ j < nodes.length := by
    intro j
    rw [List.mem_range'_1]
    omega
  obtain ⟨hrows, hcell⟩ := connectPairs_spec nodes connectivityChecker hi
    (fun j hj => ⟨((hmem j).mp hj).2, ((hmem j).mp hj).1.ne'⟩) (h.setCell i i true)
  refine ⟨hrows, fun a b => (hcell a b).trans ?_⟩
  simp only [cell_setCell h hi hi, hmem, entry]
  rcases Nat.lt_trichotomy a b with hab | rfl | hab
  · rw [min_eq_left hab.le, max_eq_right hab.le, decide_eq_false hab.ne, Bool.false_or,
      if_neg (by omega : ¬ (b = i ∧ i < a ∧ a < nodes.length)),
      if_neg (by omega : ¬ (a = i ∧ b = i))]
    by_cases hai : a = i
    · subst hai
      simp [hab]
    · simp [hai]
  · by_cases hai : a = i
    · subst hai
      simp [hi]
    · simp [hai]
  · rw [min_eq_right hab.le, max_eq_left hab.le, decide_eq_false hab.ne', Bool.false_or,
      if_neg (by omega : ¬ (a = i ∧ i < b ∧ b < nodes.length)),
      if_neg (by omega : ¬ (a = i ∧ b = i))]
    by_cases hbi : b = i
    · subst hbi
      simp [hab]
    · simp [hbi]

theorem connectRows_spec {is : List ℕ} (his : ∀ i ∈ is, i < nodes.length)
    (h : HasRows nodes.length matrix) (a b : ℕ) :
    cell (connectRows nodes connectivityChecker is matrix) a b
      = if min a b ∈ is ∧ max a b < nodes.length then entry nodes connectivityChecker a b
        else cell matrix a b := by
  induction is generalizing matrix with
  | nil => simp [connectRows]
  | cons i is ih =>
      obtain ⟨hrows, hcell⟩ := connectRow_spec connectivityChecker
        (his i List.mem_cons_self) h
      refine (ih (fun i hi => his i (List.mem_cons_of_mem _ hi)) hrows).trans ?_
      simp only [hcell, List.mem_cons]
      grind

/-- **The cells of the matrix**: every pair was asked about once, smaller position first. -/
theorem cell_calculateConnectivityMatrix (a b : ℕ) :
    cell (calculateConnectivityMatrix nodes connectivityChecker) a b
      = (decide (max a b < nodes.length) && entry nodes connectivityChecker a b) := by
  have hrows : HasRows nodes.length
      (List.replicate nodes.length (List.replicate nodes.length false)) := by
    intro i hi
    rw [List.getD_eq_getElem _ _ (by rwa [List.length_replicate]), List.getElem_replicate,
      List.length_replicate]
  have hempty : cell (List.replicate nodes.length (List.replicate nodes.length false)) a b
      = false := by
    rw [cell]
    grind
  rw [calculateConnectivityMatrix, connectRows_spec (fun i hi => List.mem_range.mp hi) hrows,
    hempty]
  simp only [List.mem_range]
  grind

end

end SplitBrainUtils

end QcDatabase
