/-
# The lock manager is a set of locks

A caller of `DefaultLockManager` sees a set of locks (`Granted`).  Every
operation changes that set by exactly the locks it names (`OperationsExact`), and
every query answers from it (`QueriesExact`), in every state that any order of
stretches of `acquire_lock`, releases and cleanups reaches: how the set is spread
over the three tables does not show.

That is so where a mutex may be locked again by its owner.  As the code stands
`release_all_locks` and `cleanup_expired_locks` return only where they find no lock to
release (`OperationsReturn`).
-/
import QcDatabase.Transaction.DeadlockDetection
import QcDatabase.Transaction.LockDiscipline
import QcDatabase.Transaction.LockTables

open UnorderedMap

namespace QcDatabase

namespace DefaultLockManager

/-! ## The queries -/

/-- `DefaultLockManager::is_locked`. -/
def isLocked (m : DefaultLockManager) (key : MultiLevelKey) : Bool :=
  match m.keyLocks.lookup key with
  | none => false
  | some ids => !ids.isEmpty

/-- `DefaultLockManager::can_acquire_lock`. -/
def canAcquireLock (m : DefaultLockManager) (key : MultiLevelKey) (type : LockType) : Bool :=
  match m.keyLocks.lookup key with
  | none => true
  | some ids =>
      ids.all fun id =>
        match m.locks.lookup id with
        | none => true
        | some l => isLockCompatible l.type type

/-- `DefaultLockManager::get_locks_by_transaction`. -/
def getLocksByTransaction (m : DefaultLockManager) (i : IterationOrder) (tx : TransactionId) :
    List LockInfo :=
  match m.transactionLocks.lookup tx with
  | none => []
  | some ids => (i.order ids).filterMap fun id => m.locks.lookup id

/-! ## The set of locks -/

/-- The lock is one of those there are. -/
def Granted (m : DefaultLockManager) (l : LockInfo) : Prop := m.locks.lookup l.lockId = some l

instance (m : DefaultLockManager) (l : LockInfo) : Decidable (m.Granted l) :=
  inferInstanceAs (Decidable (_ = _))

/-- Every lock is found under its own id, and a transaction lists a lock once. -/
structure Listed (m : DefaultLockManager) : Prop where
  named : ∀ id l, m.locks.lookup id = some l → l.lockId = id
  nodup : ∀ tx, (m.transactionLocks.bucket tx).Nodup

theorem listed_create : create.Listed := by
  constructor
  · intro id l hl
    rw [show create.locks = ∅ from rfl, AList.lookup_empty] at hl
    cases hl
  · intro tx
    rw [show create.transactionLocks = ∅ from rfl, bucket_empty]
    exact List.nodup_nil

section

variable {m m' : DefaultLockManager} {id : LockId} {l : LockInfo}

theorem Listed.granted (h : m.Listed) (hl : m.locks.lookup id = some l) : m.Granted l := by
  unfold Granted
  rw [h.named id l hl]
  exact hl

theorem Listed.of_waitGraph (h : m.Listed) (g : UnorderedMap TransactionId (List TransactionId)) :
    { m with waitGraph := g }.Listed :=
  ⟨h.named, h.nodup⟩

theorem Listed.grant (h : m.Listed) (r : LockRequest) (now : TimePoint) (timeout : Milliseconds) :
    (m.grant r now timeout).Listed := by
  constructor
  · intro id l hl
    rcases lookup_grant hl with ⟨-, rfl⟩ | ⟨-, hold⟩
    · rfl
    · exact h.named id l hold
  · intro tx
    show (bucket (m.transactionLocks.insert r.transactionId _) tx).Nodup
    rw [bucket_insert]
    split_ifs with htx
    · exact (h.nodup r.transactionId).insert
    · exact h.nodup tx

theorem Listed.releaseLock (h : m.Listed) (id : LockId) : (m.releaseLock id).2.Listed := by
  have hnamed : ∀ id' l, (m.releaseLock id).2.locks.lookup id' = some l → l.lockId = id' :=
    fun id' l hl => h.named id' l (lookup_releaseLock.mp hl).2
  refine ⟨hnamed, ?_⟩
  unfold DefaultLockManager.releaseLock
  cases m.locks.lookup id with
  | none => exact h.nodup
  | some l =>
      intro tx
      show (bucket (m.transactionLocks.removeFrom l.transactionId id) tx).Nodup
      rw [bucket_removeFrom]
      split_ifs with htx
      · exact (h.nodup l.transactionId).filter _
      · exact h.nodup tx

theorem Listed.releaseLocks (h : m.Listed) (ids : List LockId) : (m.releaseLocks ids).Listed := by
  induction ids generalizing m with
  | nil => exact h
  | cons id ids ih => exact ih (h.releaseLock id)

theorem Listed.releaseAllLocks (h : m.Listed) (i : IterationOrder) (tx : TransactionId) :
    (m.releaseAllLocks i tx).2.Listed := by
  unfold DefaultLockManager.releaseAllLocks
  cases m.transactionLocks.lookup tx with
  | none => exact h
  | some ids => exact (h.releaseLocks (i.order ids)).of_waitGraph _

theorem Listed.stretch {c : LockCall} {i : IterationOrder} {result : Result LockId ⊕ LockCall}
    (h : m.Listed) (hstep : c.Stretch m i result m') : m'.Listed := by
  cases hstep with
  | granted now timeout hfree => exact h.grant c.request now timeout
  | refused failure holder => exact (h.of_waitGraph _).of_waitGraph _
  | waiting existing deadline hnone => exact h.of_waitGraph _
  | timedOut failure holder => exact h.of_waitGraph _
  | retrying timeout => exact h

/-! ## What the queries answer -/

theorem isLocked_iff (h : m.WellFormed) (hlisted : m.Listed) {key : MultiLevelKey} :
    m.isLocked key = true ↔ ∃ l, m.Granted l ∧ l.key = key := by
  have hbucket : m.isLocked key = true ↔ m.keyLocks.bucket key ≠ [] := by
    unfold isLocked
    cases hids : m.keyLocks.lookup key with
    | none =>
        rw [bucket_of_lookup_none hids]
        simp
    | some ids =>
        rw [bucket_of_lookup_some hids]
        simp
  rw [hbucket]
  constructor
  · intro hne
    obtain ⟨id, hid⟩ := List.exists_mem_of_ne_nil _ hne
    obtain ⟨l, hl, hkey⟩ := (h.keyLocks key id).mp hid
    exact ⟨l, hlisted.granted hl, hkey⟩
  · rintro ⟨l, hl, hkey⟩
    exact List.ne_nil_of_mem ((h.keyLocks key l.lockId).mpr ⟨l, hl, hkey⟩)

/-- A scan of the key's locks asks each of them, whoever holds it. -/
theorem canAcquireLock_iff (h : m.WellFormed) (hlisted : m.Listed) {key : MultiLevelKey}
    {type : LockType} :
    m.canAcquireLock key type = true ↔
      ∀ l, m.Granted l → l.key = key → isLockCompatible l.type type = true := by
  have hscan : m.canAcquireLock key type = true ↔ ∀ id ∈ m.keyLocks.bucket key,
      ∀ l, m.locks.lookup id = some l → isLockCompatible l.type type = true := by
    unfold canAcquireLock
    cases hids : m.keyLocks.lookup key with
    | none =>
        rw [bucket_of_lookup_none hids]
        simp
    | some ids =>
        rw [bucket_of_lookup_some hids]
        dsimp only
        rw [List.all_eq_true]
        apply forall₂_congr
        intro id hid
        cases m.locks.lookup id with
        | none => simp
        | some l => simp
  rw [hscan]
  constructor
  · intro hall l hl hkey
    exact hall l.lockId ((h.keyLocks key l.lockId).mpr ⟨l, hl, hkey⟩) l hl
  · intro hall id hid l hl
    obtain ⟨l', hl', hkey⟩ := (h.keyLocks key id).mp hid
    rw [hl] at hl'
    cases hl'
    exact hall l (hlisted.granted hl) hkey

theorem mem_getLocksByTransaction (h : m.WellFormed) (hlisted : m.Listed) {i : IterationOrder}
    {tx : TransactionId} :
    l ∈ m.getLocksByTransaction i tx ↔ m.Granted l ∧ l.transactionId = tx := by
  have hlookup : l ∈ m.getLocksByTransaction i tx ↔
      ∃ id ∈ m.transactionLocks.bucket tx, m.locks.lookup id = some l := by
    unfold getLocksByTransaction
    cases hids : m.transactionLocks.lookup tx with
    | none =>
        rw [bucket_of_lookup_none hids]
        simp
    | some ids =>
        rw [bucket_of_lookup_some hids]
        simp
  rw [hlookup]
  constructor
  · rintro ⟨id, hid, hl⟩
    obtain ⟨l', hl', htx⟩ := (h.transactionLocks tx id).mp hid
    rw [hl] at hl'
    cases hl'
    exact ⟨hlisted.granted hl, htx⟩
  · rintro ⟨hl, htx⟩
    exact ⟨l.lockId, (h.transactionLocks tx l.lockId).mpr ⟨l, hl, htx⟩, hl⟩

theorem nodup_getLocksByTransaction (hlisted : m.Listed) (i : IterationOrder) (tx : TransactionId) :
    (m.getLocksByTransaction i tx).Nodup := by
  unfold getLocksByTransaction
  cases hids : m.transactionLocks.lookup tx with
  | none => exact List.nodup_nil
  | some ids =>
      have hnodup : (i.order ids).Nodup := by
        rw [(i.perm ids).nodup_iff, ← bucket_of_lookup_some hids]
        exact hlisted.nodup tx
      refine hnodup.filterMap ?_
      -- two ids that lead to one lock are the id of that lock
      intro id id' l hl hl'
      rw [← hlisted.named id l hl, ← hlisted.named id' l hl']

/-! ## What `acquire_lock` finds -/

/-- No lock of another transaction on the key stands in the way. -/
def Free (m : DefaultLockManager) (r : LockRequest) : Prop :=
  ∀ l, m.Granted l → l.key = r.key → l.transactionId ≠ r.transactionId →
    isLockCompatible l.type r.type = true

theorem firstConflict_eq_none_iff (h : m.WellFormed) (hlisted : m.Listed) {r : LockRequest} :
    m.firstConflict r (m.keyLocks.bucket r.key) = none ↔ m.Free r := by
  constructor
  · intro hnone l hl hkey hother
    exact compatible_of_firstConflict hnone ((h.keyLocks r.key l.lockId).mpr ⟨l, hl, hkey⟩) hl hother
  · intro hfree
    cases hfirst : m.firstConflict r (m.keyLocks.bucket r.key) with
    | none => rfl
    | some existing =>
        obtain ⟨id, l, hl, -, hother, hkey, hincompatible⟩ := h.blocks_of_firstConflict hfirst
        rw [hfree l (hlisted.granted hl) hkey hother] at hincompatible
        cases hincompatible

/-- What the queries answer, in terms of the set of locks. -/
structure QueriesExact (m : DefaultLockManager) : Prop where
  isLocked : ∀ key, m.isLocked key = true ↔ ∃ l, m.Granted l ∧ l.key = key
  canAcquireLock : ∀ key type, m.canAcquireLock key type = true ↔
    ∀ l, m.Granted l → l.key = key → isLockCompatible l.type type = true
  mem_getLocks : ∀ i tx l,
    l ∈ m.getLocksByTransaction i tx ↔ m.Granted l ∧ l.transactionId = tx
  nodup_getLocks : ∀ i tx, (m.getLocksByTransaction i tx).Nodup
  /-- Whoever is told that a lock can be acquired gets it at once. -/
  acquires : ∀ r i now timeout, m.canAcquireLock r.key r.type = true →
    (m.acquireLock i now r timeout).1 = .granted (generateLockId m.nextLockId)
  /-- For a transaction without a lock on the key the answer is exact. -/
  acquires_iff : ∀ r i now timeout,
    (∀ l, m.Granted l → l.key = r.key → l.transactionId ≠ r.transactionId) →
      ((∃ id, (m.acquireLock i now r timeout).1 = .granted id) ↔
        m.canAcquireLock r.key r.type = true)

/-- `acquire_lock` grants at its entry iff the request is free. -/
theorem acquireLock_granted_iff (h : m.WellFormed) (hlisted : m.Listed) {r : LockRequest}
    {i : IterationOrder} {now : TimePoint} {timeout : Milliseconds} :
    (m.Free r → (m.acquireLock i now r timeout).1 = .granted (generateLockId m.nextLockId)) ∧
      ((∃ id, (m.acquireLock i now r timeout).1 = .granted id) → m.Free r) := by
  rw [← firstConflict_eq_none_iff h hlisted]
  unfold acquireLock
  cases hfirst : m.firstConflict r (m.keyLocks.bucket r.key) with
  | none => exact ⟨fun _ => rfl, fun _ => rfl⟩
  | some existing =>
      refine ⟨fun hnone => (by cases hnone), ?_⟩
      dsimp only
      split_ifs
      · rintro ⟨id, hid⟩
        cases hid
      · rintro ⟨id, hid⟩
        cases hid

theorem queriesExact (h : m.WellFormed) (hlisted : m.Listed) : m.QueriesExact where
  isLocked key := isLocked_iff h hlisted
  canAcquireLock key type := canAcquireLock_iff h hlisted
  mem_getLocks i tx l := mem_getLocksByTransaction h hlisted
  nodup_getLocks i tx := nodup_getLocksByTransaction hlisted i tx
  acquires r i now timeout hcan := by
    apply (acquireLock_granted_iff h hlisted).1
    intro l hl hkey _
    exact (canAcquireLock_iff h hlisted).mp hcan l hl hkey
  acquires_iff r i now timeout hnone := by
    have hfree : m.Free r ↔ m.canAcquireLock r.key r.type = true := by
      rw [canAcquireLock_iff h hlisted]
      constructor
      · exact fun hfree l hl hkey => hfree l hl hkey (hnone l hl hkey)
      · exact fun hall l hl hkey _ => hall l hl hkey
    rw [← hfree]
    constructor
    · exact (acquireLock_granted_iff h hlisted).2
    · exact fun hfree => ⟨_, (acquireLock_granted_iff h hlisted).1 hfree⟩

/-! ## What the operations change -/

/-- The lock that a stretch grants at `now`. -/
def newLock (m : DefaultLockManager) (c : LockCall) (now : TimePoint) (timeout : Milliseconds) :
    LockInfo :=
  ⟨generateLockId m.nextLockId, c.request.type, c.request.transactionId, c.request.key, now, timeout⟩

/-- What the operations do to the set of locks. -/
structure OperationsExact (m : DefaultLockManager) : Prop where
  releaseLock_ok : ∀ id, (m.releaseLock id).1 = .ok () ↔ ∃ l, m.Granted l ∧ l.lockId = id
  releaseLock : ∀ id l, (m.releaseLock id).2.Granted l ↔ m.Granted l ∧ l.lockId ≠ id
  releaseAllLocks : ∀ i tx l,
    (m.releaseAllLocks i tx).2.Granted l ↔ m.Granted l ∧ l.transactionId ≠ tx
  cleanupExpiredLocks : ∀ i clock l,
    (m.cleanupExpiredLocks i clock).Granted l ↔
      m.Granted l ∧ l.isExpired (clock l.lockId) = false
  /-- A call that enters and is free gets one new lock. -/
  acquires : ∀ (request : LockRequest) (timeout : Milliseconds) (w : Moment),
    m.Free request →
      let c : LockCall := ⟨request, .entering timeout⟩
      (c.advance m w).1 = .inl (.ok (generateLockId m.nextLockId)) ∧
      ¬ m.Granted (m.newLock c w.now timeout) ∧
      ∀ l, (c.advance m w).2.Granted l ↔ m.Granted l ∨ l = m.newLock c w.now timeout
  /-- Any other stretch gets none. -/
  waits : ∀ (c : LockCall) (w : Moment), (c.isWaiting = false → ¬ m.Free c.request) →
    (∀ id, (c.advance m w).1 ≠ .inl (.ok id)) ∧
      ∀ l, (c.advance m w).2.Granted l ↔ m.Granted l

/-- Which operations return as the code stands, started by a thread without a mutex. -/
structure OperationsReturn (m : DefaultLockManager) : Prop where
  releaseLock : ∀ id, (m.releaseLockTraced id).Disciplined noMutex
  releaseAllLocks : ∀ i tx, (m.releaseAllLocksTraced i tx).Disciplined noMutex ↔
    ∀ l, m.Granted l → l.transactionId ≠ tx
  cleanupExpiredLocks : ∀ i clock, (m.cleanupExpiredLocksTraced i clock).Disciplined noMutex ↔
    ∀ l, m.Granted l → l.isExpired (clock l.lockId) = false

theorem releaseLock_ok_iff (hlisted : m.Listed) :
    (m.releaseLock id).1 = .ok () ↔ ∃ l, m.Granted l ∧ l.lockId = id := by
  unfold DefaultLockManager.releaseLock
  cases hl : m.locks.lookup id with
  | none =>
      refine ⟨fun hok => (by cases hok), ?_⟩
      rintro ⟨l, hgranted, rfl⟩
      rw [Granted, hl] at hgranted
      cases hgranted
  | some l => exact ⟨fun _ => ⟨l, hlisted.granted hl, hlisted.named id l hl⟩, fun _ => rfl⟩

theorem granted_cleanupExpiredLocks {i : IterationOrder} {clock : LockId → TimePoint} :
    (m.cleanupExpiredLocks i clock).Granted l ↔
      m.Granted l ∧ l.isExpired (clock l.lockId) = false := by
  unfold Granted DefaultLockManager.cleanupExpiredLocks
  dsimp only
  rw [lookup_releaseLocks, and_comm]
  apply and_congr_right
  intro hl
  have hentry : (⟨l.lockId, l⟩ : Sigma fun _ : LockId => LockInfo) ∈ m.locks.entries :=
    AList.mem_lookup_iff.mp hl
  constructor
  · intro hnot
    by_contra hexpired
    rw [Bool.not_eq_false] at hexpired
    apply hnot
    refine List.mem_map.mpr ⟨⟨l.lockId, l⟩, List.mem_filter.mpr ⟨?_, hexpired⟩, rfl⟩
    exact (i.perm _).mem_iff.mpr hentry
  · intro hfresh hmem
    obtain ⟨⟨id, l'⟩, hfound, hid⟩ := List.mem_map.mp hmem
    obtain ⟨hlisted, hexpired⟩ := List.mem_filter.mp hfound
    obtain rfl : id = l.lockId := hid
    -- the id leads to one lock only
    have hl' : m.locks.lookup l.lockId = some l' :=
      AList.mem_lookup_iff.mpr ((i.perm _).mem_iff.mp hlisted)
    rw [hl] at hl'
    cases hl'
    rw [hfresh] at hexpired
    cases hexpired

theorem operationsExact (h : m.WellFormed) (hlisted : m.Listed) : m.OperationsExact where
  releaseLock_ok id := releaseLock_ok_iff hlisted
  releaseLock id l := by
    unfold Granted
    rw [lookup_releaseLock, and_comm]
  releaseAllLocks i tx l := by
    unfold Granted
    rw [h.lookup_releaseAllLocks, and_comm]
  cleanupExpiredLocks i clock l := granted_cleanupExpiredLocks
  acquires request timeout w hfree := by
    have hnone := (firstConflict_eq_none_iff h hlisted).mpr hfree
    have hadvance : (⟨request, .entering timeout⟩ : LockCall).advance m w =
        (.inl (.ok (generateLockId m.nextLockId)), m.grant request w.now timeout) := by
      rw [LockCall.advance]
      dsimp only
      rw [acquireLock, hnone]
    dsimp only
    rw [hadvance]
    refine ⟨rfl, ?_, ?_⟩
    · intro hold
      rw [Granted, newLock, h.lookup_next] at hold
      cases hold
    · intro l
      constructor
      · intro hl
        rcases lookup_grant hl with ⟨hid, hnew⟩ | ⟨-, hold⟩
        · refine Or.inr (hnew.trans ?_)
          rw [hid, newLock]
        · exact Or.inl hold
      · rintro (hold | rfl)
        · exact h.lookup_grant_of_some hold
        · exact lookup_grant_next
  waits c w hnot := by
    have hblocked : ¬ c.Grantable m := by
      rintro ⟨hentering, hnone⟩
      exact hnot hentering ((firstConflict_eq_none_iff h hlisted).mp hnone)
    obtain ⟨hlocks, hnone⟩ := c.advance_of_not_grantable hblocked w
    refine ⟨hnone, ?_⟩
    intro l
    rw [Granted, hlocks, Granted]

/-- The locks found under any id are the granted ones. -/
theorem forall_lookup_iff (hlisted : m.Listed) {p : LockId → LockInfo → Prop} :
    (∀ id l, m.locks.lookup id = some l → p id l) ↔ ∀ l, m.Granted l → p l.lockId l := by
  constructor
  · exact fun hall l hl => hall l.lockId l hl
  · intro hall id l hl
    have hp := hall l (hlisted.granted hl)
    rwa [hlisted.named id l hl] at hp

theorem operationsReturn (h : m.WellFormed) (hlisted : m.Listed) : m.OperationsReturn where
  releaseLock id := disciplined_releaseLockTraced_iff.mpr rfl
  releaseAllLocks i tx := by
    rw [disciplined_releaseAllLocksTraced_iff, listsNoLock_iff h,
      forall_lookup_iff (p := fun _ l => l.transactionId ≠ tx) hlisted]
    exact and_iff_right rfl
  cleanupExpiredLocks i clock := by
    rw [disciplined_cleanupExpiredLocksTraced_iff,
      forall_lookup_iff (p := fun id l => l.isExpired (clock id) = false) hlisted]
    exact and_iff_right rfl

end

end DefaultLockManager

namespace LockSystem

open DefaultLockManager

/-! ## Every order of operations -/

theorem step_listed {s : LockSystem} (h : s.manager.Listed) (action : LockAction) :
    (s.step action).manager.Listed := by
  cases action with
  | acquireLock request timeout => exact h
  | advance n moment =>
      rcases s.step_advance_cases n moment with heq | ⟨c, result, hstretch⟩
      · rw [heq]
        exact h
      · exact h.stretch hstretch
  | releaseLock id => exact h.releaseLock id
  | releaseAllLocks order tx => exact h.releaseAllLocks order tx

theorem tableRun_listed (actions : List TableAction) :
    (create.tableRun actions).manager.WellFormed ∧ (create.tableRun actions).manager.Listed := by
  refine StepRun.invariant (fun s : LockSystem => s.manager.WellFormed ∧ s.manager.Listed) ?_
    ⟨wellFormed_create, listed_create⟩ actions
  intro s action h
  cases action with
  | call action => exact ⟨step_wellFormed h.1 action, step_listed h.2 action⟩
  | cleanupExpiredLocks order clock => exact ⟨h.1.releaseLocks _, h.2.releaseLocks _⟩

/-- **The queries answer from the set of locks** in every state. -/
theorem lockQueries_exact (actions : List TableAction) :
    (create.tableRun actions).manager.QueriesExact :=
  queriesExact (tableRun_listed actions).1 (tableRun_listed actions).2

/-- **The operations change the set of locks by what they name** in every state, where a
mutex may be locked again by its owner; as the code stands the releases of many locks return
only where there is none to release. -/
theorem lockOperations_exact (actions : List TableAction) :
    (create.tableRun actions).manager.OperationsExact ∧
      (create.tableRun actions).manager.OperationsReturn :=
  ⟨operationsExact (tableRun_listed actions).1 (tableRun_listed actions).2,
    operationsReturn (tableRun_listed actions).1 (tableRun_listed actions).2⟩

end LockSystem

end QcDatabase
