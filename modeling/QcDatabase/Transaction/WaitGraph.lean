/-
# The wait graph has no cycles

A request that has to wait is entered into the wait graph and withdrawn again
if that closes a cycle; everything else only removes edges.  So the graph is
acyclic whenever the mutex is free, and `detect_deadlocks` finds nothing.
-/
import QcDatabase.Lib.Acyclic
import QcDatabase.Transaction.MutualExclusion

open Relation UnorderedMap

namespace QcDatabase.DefaultLockManager

variable {m m' : DefaultLockManager} {i : IterationOrder} {tx holder : TransactionId}

/-- `x` is recorded to wait for `y`. -/
def WaitsFor (m : DefaultLockManager) (x y : TransactionId) : Prop := y ∈ m.waitsFor x

/-! ## Edges that operations add and remove -/

theorem waitsFor_addWait {x y : TransactionId} :
    (m.addWait tx holder).WaitsFor x y ↔ m.WaitsFor x y ∨ x = tx ∧ y = holder := by
  show y ∈ bucket (m.waitGraph.insert tx _) x ↔ y ∈ bucket m.waitGraph x ∨ _
  rw [bucket_insert]
  by_cases hx : x = tx
  · rw [if_pos hx, List.mem_insert_iff, hx, waitsFor]
    tauto
  · simp [hx]

theorem waitsFor_dropWait {x y : TransactionId} :
    (m.dropWait tx holder).WaitsFor x y ↔ m.WaitsFor x y ∧ ¬ (x = tx ∧ y = holder) := by
  show y ∈ bucket (m.waitGraph.insert tx _) x ↔ y ∈ bucket m.waitGraph x ∧ _
  rw [bucket_insert]
  by_cases hx : x = tx
  · rw [if_pos hx, List.mem_filter, hx, waitsFor]
    simp
  · simp [hx]

theorem waitsFor_of_erase {x y : TransactionId}
    (h : { m with waitGraph := m.waitGraph.erase tx }.WaitsFor x y) : m.WaitsFor x y := by
  have hmem : y ∈ bucket (m.waitGraph.erase tx) x := h
  rw [bucket_erase] at hmem
  split_ifs at hmem with hx
  · exact absurd hmem List.not_mem_nil
  · exact hmem

theorem waitGraph_releaseLock (id : LockId) : (m.releaseLock id).2.waitGraph = m.waitGraph := by
  rw [releaseLock]
  rcases m.locks.lookup id with _ | l <;> rfl

theorem waitGraph_releaseLocks (ids : List LockId) :
    (m.releaseLocks ids).waitGraph = m.waitGraph := by
  induction ids generalizing m with
  | nil => rfl
  | cons id ids ih => exact ih.trans (waitGraph_releaseLock id)

theorem waitsFor_of_releaseAllLocks {x y : TransactionId}
    (h : (m.releaseAllLocks i tx).2.WaitsFor x y) : m.WaitsFor x y := by
  rw [releaseAllLocks] at h
  rcases hids : m.transactionLocks.lookup tx with _ | ids
  · rw [hids] at h
    exact h
  · rw [hids] at h
    have hold : (m.releaseLocks (i.order ids)).WaitsFor x y := waitsFor_of_erase h
    rw [WaitsFor, waitsFor, waitGraph_releaseLocks] at hold
    exact hold

/-! ## The search in the wait graph -/

theorem edge_iff_waitsFor {x y : TransactionId} :
    CycleSearch.Edge (fun tx => i.order (m.waitsFor tx)) x y ↔ m.WaitsFor x y :=
  IterationOrder.mem_order i

/-- The search does not leave the start and the transactions that are waited for. -/
theorem closed_members (m : DefaultLockManager) (i : IterationOrder) (start : TransactionId) :
    ∀ x ∈ start :: members m.waitGraph, ∀ y ∈ i.order (m.waitsFor x),
      y ∈ start :: members m.waitGraph := by
  intro x _ y hy
  exact List.mem_cons_of_mem start (mem_members ((IterationOrder.mem_order i).mp hy))

/-- **The search in the wait graph is exact**, in whatever order the sets are iterated. -/
theorem findCycleInWaitGraph_ne_nil_iff {start : TransactionId} :
    m.findCycleInWaitGraph i start ≠ [] ↔
      ∃ x, ReflTransGen m.WaitsFor start x ∧ TransGen m.WaitsFor x x := by
  have hedge : CycleSearch.Edge (fun tx => i.order (m.waitsFor tx)) = m.WaitsFor := by
    funext x y
    exact propext edge_iff_waitsFor
  rw [findCycleInWaitGraph,
    CycleSearch.findCycle_ne_nil_iff (closed_members m i start) List.mem_cons_self,
    CycleSearch.ReachesCycle, hedge]

/-- **The search ends and is exact**: from some depth on, whatever the limit of the recursion,
it comes to one result, and the path in it is that of a reachable cycle or empty. -/
theorem findCycleInWaitGraph_exact (m : DefaultLockManager) (i : IterationOrder)
    (start : TransactionId) :
    (∃ result : Bool × CycleSearch.Search TransactionId,
      (∀ fuel, (members m.waitGraph).length + 2 ≤ fuel →
        CycleSearch.visit (fun tx => i.order (m.waitsFor tx)) fuel start CycleSearch.Search.start
          = some result) ∧
      m.findCycleInWaitGraph i start = if result.1 then result.2.path else []) ∧
    (m.findCycleInWaitGraph i start ≠ [] ↔
      ∃ x, ReflTransGen m.WaitsFor start x ∧ TransGen m.WaitsFor x x) := by
  refine ⟨?_, findCycleInWaitGraph_ne_nil_iff⟩
  obtain ⟨result, hresult⟩ := Option.isSome_iff_exists.mp
    (CycleSearch.visit_start_isSome (closed_members m i start) List.mem_cons_self)
  refine ⟨result, fun fuel hfuel => ?_, ?_⟩
  · obtain ⟨k, rfl⟩ := Nat.exists_eq_add_of_le hfuel
    exact CycleSearch.visit_add hresult k
  · rw [findCycleInWaitGraph, CycleSearch.findCycle, hresult]
    rcases result with ⟨_ | _, s⟩ <;> rfl

theorem detectFrom_eq_nil (h : Acyclic m.WaitsFor) (txs visited : List TransactionId) :
    m.detectFrom i txs visited = [] := by
  induction txs generalizing visited with
  | nil => rfl
  | cons tx txs ih =>
      have hnone : m.findCycleInWaitGraph i tx = [] := by
        by_contra hcycle
        obtain ⟨x, -, hx⟩ := findCycleInWaitGraph_ne_nil_iff.mp hcycle
        exact h x hx
      rw [detectFrom]
      split_ifs with hvisited
      · exact ih visited
      · rw [hnone]
        exact ih visited

/-- **There are no deadlocks to detect** in an acyclic wait graph. -/
theorem detectDeadlocks_eq_nil (h : Acyclic m.WaitsFor) : m.detectDeadlocks i = [] :=
  detectFrom_eq_nil h _ _

/-! ## The graph stays acyclic -/

theorem acyclic_create : Acyclic create.WaitsFor := by
  intro x hcycle
  obtain ⟨y, hedge, -⟩ := TransGen.head'_iff.mp hcycle
  have hmem : y ∈ bucket (∅ : UnorderedMap TransactionId (List TransactionId)) x := hedge
  rw [bucket_empty] at hmem
  exact absurd hmem List.not_mem_nil

/-- An edge whose search found no cycle closes none. -/
theorem acyclic_addWait (h : Acyclic m.WaitsFor)
    (hnone : (m.addWait tx holder).findCycleInWaitGraph i tx = []) :
    Acyclic (m.addWait tx holder).WaitsFor := by
  intro x hcycle
  -- all new edges leave `tx`, where the search started
  have hnew : ∀ x y, (m.addWait tx holder).WaitsFor x y → m.WaitsFor x y ∨ x = tx := by
    intro x y hxy
    rcases waitsFor_addWait.mp hxy with hold | ⟨hx, -⟩
    · exact Or.inl hold
    · exact Or.inr hx
  have hthrough := transGen_of_edges_from hnew h hcycle
  exact findCycleInWaitGraph_ne_nil_iff.mpr ⟨tx, ReflTransGen.refl, hthrough⟩ hnone

theorem acyclic_of_stretch {c : LockCall} {result : Result LockId ⊕ LockCall}
    (h : Acyclic m.WaitsFor) (hstep : c.Stretch m i result m') : Acyclic m'.WaitsFor := by
  cases hstep with
  | granted now timeout hfree => exact h.mono fun x y hxy => waitsFor_of_erase hxy
  | refused failure holder =>
      apply h.mono
      intro x y hxy
      obtain ⟨hadded, hnot⟩ := waitsFor_dropWait.mp hxy
      exact (waitsFor_addWait.mp hadded).resolve_right hnot
  | waiting existing deadline hnone => exact acyclic_addWait h hnone
  | timedOut failure holder => exact h.mono fun x y hxy => (waitsFor_dropWait.mp hxy).1
  | retrying timeout => exact h

theorem acyclic_releaseAllLocks (h : Acyclic m.WaitsFor) (tx : TransactionId) :
    Acyclic (m.releaseAllLocks i tx).2.WaitsFor :=
  h.mono fun _ _ hxy => waitsFor_of_releaseAllLocks hxy

theorem acyclic_releaseLock (h : Acyclic m.WaitsFor) (id : LockId) :
    Acyclic (m.releaseLock id).2.WaitsFor := by
  apply h.mono
  intro x y hxy
  rwa [WaitsFor, waitsFor, waitGraph_releaseLock] at hxy

end QcDatabase.DefaultLockManager
