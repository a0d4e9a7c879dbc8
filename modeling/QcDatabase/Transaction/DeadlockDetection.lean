/-
# Deadlock detection

The wait graph against what it stands for: which calls of `acquire_lock` in
progress are blocked, and by whom (`LockSystem.WaitsOn`).

The graph is acyclic whenever the mutex is free, so the background thread never
has a deadlock to resolve (`DetectionSystem.waitGraph_acyclic`).  A request is
refused when its edge would close a cycle.  The edges can be stale, as nothing
removes them when the lock behind them is released; `deadlockDetected_sound`
says when a refusal is justified all the same.
-/
import QcDatabase.Lib.StepRuns
import QcDatabase.Transaction.WaitGraph

open Relation UnorderedMap StepRun

namespace QcDatabase

/-! ## The graph is acyclic in every reachable state -/

namespace LockSystem

theorem step_acyclic {s : LockSystem} (h : Acyclic s.manager.WaitsFor) (action : LockAction) :
    Acyclic (s.step action).manager.WaitsFor := by
  cases action with
  | acquireLock request timeout => exact h
  | advance n moment =>
      rw [step]
      rcases s.calls[n]? with _ | c
      · exact h
      · -- whether the call returns or goes on, the manager is the one after its stretch
        have hstretch := c.advance_stretch s.manager moment
        have hacyclic := DefaultLockManager.acyclic_of_stretch h hstretch
        dsimp only
        rcases hadvance : c.advance s.manager moment with ⟨_ | c', manager⟩
        · rwa [hadvance] at hacyclic
        · rwa [hadvance] at hacyclic
  | releaseLock id => exact DefaultLockManager.acyclic_releaseLock h id
  | releaseAllLocks order tx => exact DefaultLockManager.acyclic_releaseAllLocks h tx

theorem run_acyclic (actions : List LockAction) :
    Acyclic (create.run actions).manager.WaitsFor :=
  StepRun.invariant (fun s : LockSystem => Acyclic s.manager.WaitsFor)
    (fun _ action h => step_acyclic h action) DefaultLockManager.acyclic_create actions

end LockSystem

/-- A lock manager in use, and the cycles that the deadlock-detection thread has
still to resolve. -/
structure DetectionSystem where
  locking : LockSystem
  deadlocks : List (List TransactionId)

/-- What can happen next: an action on the locks, a call of `resolve_deadlock` by
anyone, and the two steps of a background pass. -/
inductive DetectionAction where
  | locking (action : LockAction)
  | resolveDeadlock (order : IterationOrder) (cycle : List TransactionId)
  | detectDeadlocks (order : IterationOrder)
  | resolveDetected (order : IterationOrder)

namespace DetectionSystem

/-- A manager nobody has used yet. -/
def create : DetectionSystem := ⟨LockSystem.create, []⟩

/-- The locks after a call of `resolve_deadlock`. -/
def resolve (s : LockSystem) (order : IterationOrder) (cycle : List TransactionId) : LockSystem :=
  { s with manager := (s.manager.resolveDeadlock order cycle).2 }

/-- The system after an action. -/
def step (s : DetectionSystem) : DetectionAction → DetectionSystem
  | .locking action => { s with locking := s.locking.step action }
  | .resolveDeadlock order cycle => { s with locking := resolve s.locking order cycle }
  | .detectDeadlocks order =>
      if s.deadlocks.isEmpty then
        { s with deadlocks := s.locking.manager.detectDeadlocks order }
      else s
  | .resolveDetected order =>
      match s.deadlocks with
      | [] => s
      | cycle :: deadlocks => ⟨resolve s.locking order cycle, deadlocks⟩

/-- The system after a sequence of actions. -/
def run (s : DetectionSystem) (actions : List DetectionAction) : DetectionSystem :=
  actions.foldl step s

theorem resolve_acyclic {s : LockSystem} (h : Acyclic s.manager.WaitsFor) (order : IterationOrder)
    (cycle : List TransactionId) : Acyclic (resolve s order cycle).manager.WaitsFor := by
  rw [resolve, DefaultLockManager.resolveDeadlock]
  rcases cycle.max? with _ | victim
  · exact h
  · exact DefaultLockManager.acyclic_releaseAllLocks h victim

/-- The graph is acyclic and no cycle waits to be resolved. -/
structure NoDeadlocks (s : DetectionSystem) : Prop where
  acyclic : Acyclic s.locking.manager.WaitsFor
  deadlocks : s.deadlocks = []

theorem NoDeadlocks.step {s : DetectionSystem} (h : s.NoDeadlocks) (action : DetectionAction) :
    (s.step action).NoDeadlocks := by
  cases action with
  | locking action => exact ⟨LockSystem.step_acyclic h.acyclic action, h.deadlocks⟩
  | resolveDeadlock order cycle => exact ⟨resolve_acyclic h.acyclic order cycle, h.deadlocks⟩
  | detectDeadlocks order =>
      rw [DetectionSystem.step, if_pos (List.isEmpty_iff.mpr h.deadlocks)]
      exact ⟨h.acyclic, DefaultLockManager.detectDeadlocks_eq_nil h.acyclic⟩
  | resolveDetected order =>
      rw [DetectionSystem.step, h.deadlocks]
      exact h

/-- **There is never a deadlock to resolve**: in every reachable state the wait
graph is acyclic, `detect_deadlocks` answers nothing, and the background thread
takes no locks from anyone. -/
theorem waitGraph_acyclic (actions : List DetectionAction) :
    Acyclic (create.run actions).locking.manager.WaitsFor ∧
      (∀ order, (create.run actions).locking.manager.detectDeadlocks order = []) ∧
      ∀ order, ((create.run actions).step (.resolveDetected order)).locking =
        (create.run actions).locking := by
  have h : (create.run actions).NoDeadlocks :=
    StepRun.invariant NoDeadlocks (fun _ action h => h.step action)
      ⟨DefaultLockManager.acyclic_create, rfl⟩ actions
  refine ⟨h.acyclic, fun order => DefaultLockManager.detectDeadlocks_eq_nil h.acyclic, ?_⟩
  intro order
  rw [step, h.deadlocks]

end DetectionSystem

/-! ## Who blocks whom -/

/-- The request has to wait for the lock. -/
def LockRequest.Conflicts (r : LockRequest) (l : LockInfo) : Prop :=
  l.transactionId ≠ r.transactionId ∧ l.key = r.key ∧ isLockCompatible l.type r.type = false

instance (r : LockRequest) (l : LockInfo) : Decidable (r.Conflicts l) :=
  inferInstanceAs (Decidable (_ ∧ _))

namespace DefaultLockManager

variable {m : DefaultLockManager} {r : LockRequest}

/-- The transaction holds a lock that the request has to wait for. -/
def Blocks (m : DefaultLockManager) (holder : TransactionId) (r : LockRequest) : Prop :=
  ∃ id l, m.locks.lookup id = some l ∧ l.transactionId = holder ∧ r.Conflicts l

theorem blocks_iff_entries {holder : TransactionId} :
    m.Blocks holder r ↔
      ∃ e ∈ m.locks.entries, e.2.transactionId = holder ∧ r.Conflicts e.2 := by
  constructor
  · rintro ⟨id, l, hl, hholder⟩
    exact ⟨⟨id, l⟩, AList.mem_lookup_iff.mp hl, hholder⟩
  · rintro ⟨⟨id, l⟩, he, hholder⟩
    exact ⟨id, l, AList.mem_lookup_iff.mpr he, hholder⟩

instance (holder : TransactionId) : Decidable (m.Blocks holder r) :=
  decidable_of_iff _ blocks_iff_entries.symm

/-- The lock that a scan of the key's ids stops at blocks the request. -/
theorem WellFormed.blocks_of_firstConflict (h : m.WellFormed) {existing : LockInfo}
    (hfirst : m.firstConflict r (m.keyLocks.bucket r.key) = some existing) :
    m.Blocks existing.transactionId r := by
  have hscan : ∀ ids, (∀ id ∈ ids, id ∈ m.keyLocks.bucket r.key) →
      m.firstConflict r ids = some existing → m.Blocks existing.transactionId r := by
    intro ids
    induction ids with
    | nil =>
        intro _ hscan
        cases hscan
    | cons id ids ih =>
        intro hids hscan
        have hrest := fun id' hid' => hids id' (List.mem_cons_of_mem id hid')
        obtain ⟨l, hl, hkey⟩ := (h.keyLocks r.key id).mp (hids id List.mem_cons_self)
        rw [firstConflict, hl] at hscan
        dsimp only at hscan
        split_ifs at hscan with hown hcompatible
        · exact ih hrest hscan
        · exact ih hrest hscan
        · obtain rfl := Option.some.inj hscan
          exact ⟨id, l, hl, rfl, hown, hkey, Bool.eq_false_iff.mpr hcompatible⟩
  exact hscan _ (fun _ hid => hid) hfirst

/-- A request that finds no conflict is not blocked. -/
theorem WellFormed.not_blocks_of_firstConflict (h : m.WellFormed)
    (hfree : m.firstConflict r (m.keyLocks.bucket r.key) = none) (holder : TransactionId) :
    ¬ m.Blocks holder r := by
  rintro ⟨id, l, hl, -, hother, hkey, hincompatible⟩
  have hcompatible := compatible_of_firstConflict hfree
    ((h.keyLocks r.key id).mpr ⟨l, hl, hkey⟩) hl hother
  rw [hincompatible] at hcompatible
  cases hcompatible

end DefaultLockManager

namespace LockSystem

/-- A call of `x` in progress is blocked by a lock that `y` holds. -/
def WaitsOn (s : LockSystem) (x y : TransactionId) : Prop :=
  ∃ c ∈ s.calls, c.request.transactionId = x ∧ s.manager.Blocks y c.request

instance (s : LockSystem) (x y : TransactionId) : Decidable (s.WaitsOn x y) :=
  inferInstanceAs (Decidable (∃ c ∈ s.calls, _))

/-! ## Refusals -/

/-- If the next stretch of the call is refused with `DEADLOCK_DETECTED`, its
transaction is on a cycle of blocked calls. -/
def RefusalJustified (s : LockSystem) (n : ℕ) (moment : Moment) : Prop :=
  ∀ c failure, s.calls[n]? = some c → (c.advance s.manager moment).1 = .inl (.error failure) →
    failure.status = .deadlockDetected →
      TransGen s.WaitsOn c.request.transactionId c.request.transactionId

/-- An edge of the wait graph that is not stale. -/
def CurrentEdge (s : LockSystem) (x y : TransactionId) : Prop :=
  s.manager.WaitsFor x y ∧ s.WaitsOn x y

/-- Where edges lead from the first lock in the way back to the transaction that
asks, current edges do. -/
def ClosedByCurrentEdges (s : LockSystem) : LockAction → Prop
  | .advance n _ => ∀ c timeout existing, s.calls[n]? = some c → c.phase = .entering timeout →
      s.manager.firstConflict c.request (s.manager.keyLocks.bucket c.request.key) = some existing →
      ReflTransGen s.manager.WaitsFor existing.transactionId c.request.transactionId →
      ReflTransGen s.CurrentEdge existing.transactionId c.request.transactionId
  | _ => True

end LockSystem

/-- A refused stretch met a lock, and its search found a cycle. -/
theorem LockCall.advance_deadlockDetected {c : LockCall} {m : DefaultLockManager} {w : Moment}
    {failure : Failure} (h : (c.advance m w).1 = .inl (.error failure))
    (hstatus : failure.status = .deadlockDetected) :
    ∃ timeout existing, c.phase = .entering timeout ∧
      m.firstConflict c.request (m.keyLocks.bucket c.request.key) = some existing ∧
      (m.addWait c.request.transactionId existing.transactionId).findCycleInWaitGraph w.order
        c.request.transactionId ≠ [] := by
  rw [LockCall.advance] at h
  rcases hphase : c.phase with timeout | ⟨existing, deadline⟩
  · rw [hphase] at h
    dsimp only at h
    rw [DefaultLockManager.acquireLock] at h
    rcases hfirst : m.firstConflict c.request (m.keyLocks.bucket c.request.key) with _ | existing
    · rw [hfirst] at h
      cases h
    · rw [hfirst] at h
      dsimp only at h
      split_ifs at h with hcycle
      exact ⟨timeout, existing, rfl, rfl, hcycle⟩
  · -- a sleeper can only time out
    rw [hphase] at h
    dsimp only at h
    split_ifs at h with hlate
    · cases h
      cases hstatus

/-- A cycle that a new edge of the wait graph closes comes back to the
transaction that asks. -/
theorem DefaultLockManager.reflTransGen_of_findCycle {m : DefaultLockManager}
    (hacyclic : Acyclic m.WaitsFor) {i : IterationOrder} {tx holder : TransactionId}
    (hcycle : (m.addWait tx holder).findCycleInWaitGraph i tx ≠ []) :
    ReflTransGen m.WaitsFor holder tx := by
  obtain ⟨x, -, hx⟩ := findCycleInWaitGraph_ne_nil_iff.mp hcycle
  have hnew : ∀ x y, (m.addWait tx holder).WaitsFor x y →
      m.WaitsFor x y ∨ x = tx ∧ y = holder := fun _ _ hxy => waitsFor_addWait.mp hxy
  have hfrom : ∀ x y, (m.addWait tx holder).WaitsFor x y → m.WaitsFor x y ∨ x = tx :=
    fun x y hxy => (hnew x y hxy).imp id And.left
  -- the old edges have no cycle, so the new one is on it
  exact reflTransGen_of_edge hnew hacyclic (transGen_of_edges_from hfrom hacyclic hx)

namespace LockSystem

/-- A refusal that goes back along current edges is justified. -/
theorem refusalJustified_of_closedByCurrentEdges {s : LockSystem} (hlocks : s.manager.WellFormed)
    (hacyclic : Acyclic s.manager.WaitsFor) {n : ℕ} {moment : Moment}
    (h : s.ClosedByCurrentEdges (.advance n moment)) : s.RefusalJustified n moment := by
  intro c failure hc hrefused hstatus
  obtain ⟨timeout, existing, hphase, hfirst, hcycle⟩ :=
    LockCall.advance_deadlockDetected hrefused hstatus
  have hback := DefaultLockManager.reflTransGen_of_findCycle hacyclic hcycle
  have hcurrent := h c timeout existing hc hphase hfirst hback
  have hpath : ReflTransGen s.WaitsOn existing.transactionId c.request.transactionId :=
    ReflTransGen.mono (fun _ _ hxy => hxy.2) _ _ hcurrent
  have hedge : s.WaitsOn c.request.transactionId existing.transactionId :=
    ⟨c, List.mem_of_getElem? hc, rfl, hlocks.blocks_of_firstConflict hfirst⟩
  exact TransGen.head' hedge hpath

/-- **Refusals are justified as long as no stale edge takes part in them**: in a
run in which every cycle that a request closes is closed by current edges too,
`DEADLOCK_DETECTED` is only returned to a transaction on a cycle of calls that
are blocked by each other's locks. -/
theorem deadlockDetected_sound (actions : List LockAction)
    (h : Along step ClosedByCurrentEdges create actions) {before after : List LockAction} {n : ℕ}
    {moment : Moment} (hactions : actions = before ++ .advance n moment :: after) :
    (create.run before).RefusalJustified n moment := by
  rw [hactions] at h
  exact refusalJustified_of_closedByCurrentEdges
    (run_wellFormed DefaultLockManager.wellFormed_create before) (run_acyclic before) h.at

/-- No edge of the wait graph is stale. -/
def NoStaleEdges (s : LockSystem) : Prop :=
  ∀ e ∈ s.manager.waitGraph.entries, ∀ holder ∈ e.2, s.WaitsOn e.1 holder

instance (s : LockSystem) : Decidable s.NoStaleEdges :=
  inferInstanceAs (Decidable (∀ e ∈ s.manager.waitGraph.entries, _))

theorem closedByCurrentEdges_of_current {s : LockSystem}
    (hcurrent : ∀ x y, s.manager.WaitsFor x y → s.CurrentEdge x y) (action : LockAction) :
    s.ClosedByCurrentEdges action := by
  cases action with
  | advance n moment =>
      intro c timeout existing _ _ _ hpath
      exact ReflTransGen.mono hcurrent _ _ hpath
  | acquireLock request timeout => trivial
  | releaseLock id => trivial
  | releaseAllLocks order tx => trivial

theorem NoStaleEdges.closedByCurrentEdges {s : LockSystem} (h : s.NoStaleEdges)
    (action : LockAction) : s.ClosedByCurrentEdges action := by
  apply closedByCurrentEdges_of_current
  intro x y hxy
  refine ⟨hxy, ?_⟩
  rw [DefaultLockManager.WaitsFor, DefaultLockManager.waitsFor, bucket] at hxy
  rcases hx : s.manager.waitGraph.lookup x with _ | holders
  · rw [hx] at hxy
    exact absurd hxy List.not_mem_nil
  · rw [hx] at hxy
    exact h ⟨x, holders⟩ (AList.mem_lookup_iff.mp hx) y hxy

/-- A moment in which all clocks stand still. -/
def sampleMoment : Moment := ⟨0, 0, IterationOrder.listed, 0⟩

/-- Two transactions lock a key each; the second one waits for the key of the
first. -/
def sampleWaiting : List LockAction :=
  [.acquireLock ⟨1, ⟨[97], []⟩, .exclusive⟩ 5000, .advance 0 sampleMoment,
    .acquireLock ⟨2, ⟨[98], []⟩, .exclusive⟩ 5000, .advance 0 sampleMoment,
    .acquireLock ⟨2, ⟨[97], []⟩, .exclusive⟩ 5000, .advance 0 sampleMoment]

/-- The first one asks for the key of the second. -/
def sampleClosing : LockCall := ⟨⟨1, ⟨[98], []⟩, .exclusive⟩, .entering 5000⟩

/-- The call of the first transaction is refused, and rightly so. -/
theorem deadlockDetected_sound_sampleWaiting :
    let s := create.run (sampleWaiting ++ [.acquireLock sampleClosing.request 5000])
    (sampleClosing.advance s.manager sampleMoment).1
        = .inl (.error (DefaultLockManager.deadlockDetected 1)) ∧
      TransGen s.WaitsOn 1 1 := by
  intro s
  have hcall : s.calls[1]? = some sampleClosing := by decide +kernel
  have hrefused : (sampleClosing.advance s.manager sampleMoment).1
      = .inl (.error (DefaultLockManager.deadlockDetected 1)) := by decide +kernel
  have hfresh : Along step (fun s _ => s.NoStaleEdges) create
      (sampleWaiting ++ .acquireLock sampleClosing.request 5000 :: [.advance 1 sampleMoment]) := by
    decide +kernel
  have hjustified := deadlockDetected_sound _
    (hfresh.mono fun _ action h => h.closedByCurrentEdges action)
    (List.append_cons sampleWaiting _ [.advance 1 sampleMoment])
  exact ⟨hrefused, hjustified _ _ hcall hrefused rfl⟩

/-- **A stale edge refuses a request.**  The first transaction releases its lock
before it asks for the key of the second one, which nobody blocks any more. -/
theorem deadlockDetected_unsound :
    ¬ (create.run (sampleWaiting ++ [.releaseLock "lock_1",
      .acquireLock sampleClosing.request 5000])).RefusalJustified 1 sampleMoment := by
  set s := create.run (sampleWaiting ++ [.releaseLock "lock_1",
    .acquireLock sampleClosing.request 5000]) with hs
  have hcall : s.calls[1]? = some sampleClosing := by decide +kernel
  have hrefused : (sampleClosing.advance s.manager sampleMoment).1
      = .inl (.error (DefaultLockManager.deadlockDetected 1)) := by decide +kernel
  -- the only lock left is the one of the second transaction
  have hblocked : ∀ c ∈ s.calls, ∀ e ∈ s.manager.locks.entries, c.request.Conflicts e.2 →
      c.request.transactionId = 1 ∧ e.2.transactionId = 2 := by decide +kernel
  have hwaits : ∀ x y, s.WaitsOn x y → x = 1 ∧ y = 2 := by
    rintro x y ⟨c, hc, rfl, hblocks⟩
    obtain ⟨e, he, rfl, hconflict⟩ := DefaultLockManager.blocks_iff_entries.mp hblocks
    exact hblocked c hc e he hconflict
  intro hjustified
  have hcycle : TransGen s.WaitsOn 1 1 := hjustified _ _ hcall hrefused rfl
  obtain ⟨y, -, hback⟩ := TransGen.tail'_iff.mp hcycle
  exact absurd (hwaits _ _ hback).2 (by decide)

end LockSystem

end QcDatabase
