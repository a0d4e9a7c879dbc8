/-
# No mutex is locked twice

`std::shared_mutex` is not recursive.  `release_all_locks` locks the mutex of the
lock manager and calls `release_lock`, which locks it again;
`cleanup_expired_transactions` and `abort_transaction` do the same with the mutex
of the transaction manager; and `acquire_lock` calls itself after a sleep with
its mutex locked.  `NestsNoMutex` names for each public function the states in
which it does not come to that, and `disciplined_iff_nestsNoMutex` is the result.

A data operation owns `mutex_` while it sleeps in `acquire_lock`, so no other
thread can commit or abort a transaction meanwhile (`waiting_blocks_ends`).
-/
import QcDatabase.Transaction.MutexTraces
import QcDatabase.Transaction.MutualExclusion
import QcDatabase.Transaction.Schedules

open SharedMutex UnorderedMap

namespace QcDatabase

/-- The thread owns neither mutex. -/
def noMutex : Held ManagerMutex := fun _ => none

/-! ## The lock manager -/

namespace DefaultLockManager

variable {m : DefaultLockManager} {held : Held ManagerMutex}

/-- No lock of the transaction is listed. -/
def ListsNoLock (m : DefaultLockManager) (tx : TransactionId) : Prop :=
  m.transactionLocks.bucket tx = []

instance (m : DefaultLockManager) (tx : TransactionId) : Decidable (m.ListsNoLock tx) :=
  inferInstanceAs (Decidable (_ = _))

/-- The request meets no lock, or would close a cycle, or sleeps past its deadline
at once. -/
def NeverRetries (m : DefaultLockManager) (r : LockRequest) (i : IterationOrder) (now : TimePoint)
    (timeout : Milliseconds) (wakes : List Wake) : Prop :=
  ∀ existing, m.firstConflict r (m.keyLocks.bucket r.key) = some existing →
    (m.addWait r.transactionId existing.transactionId).findCycleInWaitGraph i r.transactionId ≠ [] ∨
      ∀ wake ∈ wakes.head?, now + timeout * nanosPerMilli < wake.moment.now

theorem disciplined_releaseLockTraced_iff {id : LockId} :
    (m.releaseLockTraced id).Disciplined held ↔ held .lockManager = none := by
  rw [releaseLockTraced, Traced.disciplined_guarded_iff]
  exact and_iff_left (Traced.disciplined_pure _)

/-- The loop of `release_all_locks` locks the mutex that its caller owns. -/
theorem disciplined_releaseLocksTraced_iff (hheld : held .lockManager ≠ none) {ids : List LockId} :
    (m.releaseLocksTraced ids).Disciplined held ↔ ids = [] := by
  rcases ids with _ | ⟨id, ids⟩
  · exact iff_of_true (Traced.disciplined_pure _) rfl
  · refine iff_of_false ?_ (List.cons_ne_nil id ids)
    intro h
    rw [releaseLocksTraced, Traced.disciplined_bind_iff] at h
    exact hheld (disciplined_releaseLockTraced_iff.mp h.1)

theorem disciplined_releaseAllLocksTraced_iff {i : IterationOrder} {tx : TransactionId} :
    (m.releaseAllLocksTraced i tx).Disciplined held ↔
      held .lockManager = none ∧ m.ListsNoLock tx := by
  rw [releaseAllLocksTraced, Traced.disciplined_guarded_iff, ListsNoLock, bucket]
  apply and_congr_right
  intro _
  have howned : Function.update held .lockManager (some Mode.exclusive) .lockManager ≠ none := by
    rw [Function.update_self]
    exact Option.some_ne_none _
  rcases m.transactionLocks.lookup tx with _ | ids
  · exact iff_of_true (Traced.disciplined_pure _) rfl
  · dsimp only
    rw [Traced.disciplined_bind_iff, disciplined_releaseLocksTraced_iff howned,
      Option.getD_some]
    constructor
    · rintro ⟨hnil, -⟩
      exact List.Perm.eq_nil (hnil ▸ (i.perm ids).symm)
    · rintro rfl
      refine ⟨List.perm_nil.mp (i.perm []), ?_⟩
      exact fun _ _ => Traced.disciplined_pure _

/-- What a transaction lists are its locks. -/
theorem listsNoLock_iff (h : m.WellFormed) {tx : TransactionId} :
    m.ListsNoLock tx ↔ ∀ id l, m.locks.lookup id = some l → l.transactionId ≠ tx := by
  rw [ListsNoLock, List.eq_nil_iff_forall_not_mem]
  constructor
  · intro hnone id l hl htx
    exact hnone id ((h.transactionLocks tx id).mpr ⟨l, hl, htx⟩)
  · intro hnone id hid
    obtain ⟨l, hl, htx⟩ := (h.transactionLocks tx id).mp hid
    exact hnone id l hl htx

/-- `cleanup_expired_locks` locks its mutex again as soon as a lock has expired. -/
theorem disciplined_cleanupExpiredLocksTraced_iff {i : IterationOrder} {clock : LockId → TimePoint} :
    (m.cleanupExpiredLocksTraced i clock).Disciplined held ↔
      held .lockManager = none ∧
        ∀ id l, m.locks.lookup id = some l → l.isExpired (clock id) = false := by
  rw [cleanupExpiredLocksTraced, Traced.disciplined_guarded_iff]
  apply and_congr_right
  intro _
  have howned : Function.update held .lockManager (some Mode.exclusive) .lockManager ≠ none := by
    rw [Function.update_self]
    exact Option.some_ne_none _
  dsimp only
  rw [disciplined_releaseLocksTraced_iff howned, List.map_eq_nil_iff, List.filter_eq_nil_iff]
  constructor
  · intro hnone id l hl
    have hentry : (⟨id, l⟩ : Sigma fun _ : LockId => LockInfo) ∈ i.order m.locks.entries :=
      (i.perm _).mem_iff.mpr (AList.mem_lookup_iff.mp hl)
    exact Bool.eq_false_iff.mpr (hnone _ hentry)
  · rintro hfresh ⟨id, l⟩ hentry hexpired
    have hl : m.locks.lookup id = some l := AList.mem_lookup_iff.mpr ((i.perm _).mem_iff.mp hentry)
    rw [hfresh id l hl] at hexpired
    cases hexpired

theorem disciplined_resolveDeadlockTraced_iff {i : IterationOrder} {cycle : List TransactionId} :
    (m.resolveDeadlockTraced i cycle).Disciplined held ↔
      ∀ victim ∈ cycle.max?, held .lockManager = none ∧ m.ListsNoLock victim := by
  rw [resolveDeadlockTraced]
  rcases cycle.max? with _ | victim
  · exact iff_of_true (Traced.disciplined_pure _) fun _ hvictim => by cases hvictim
  · dsimp only
    rw [disciplined_releaseAllLocksTraced_iff]
    constructor
    · rintro h _ ⟨⟩
      exact h
    · exact fun h => h victim rfl

theorem lockManager_free_of_acquireLockTraced {r : LockRequest} {i : IterationOrder}
    {now : TimePoint} {timeout : Milliseconds} {wakes : List Wake}
    (h : (acquireLockTraced r m i now timeout wakes).Disciplined held) : held .lockManager = none := by
  rw [acquireLockTraced, Traced.disciplined_guarded_iff] at h
  exact h.1

/-- A call of `acquire_lock` that wakes up in time locks its mutex again. -/
theorem disciplined_acquireLockTraced_iff {r : LockRequest} {i : IterationOrder} {now : TimePoint}
    {timeout : Milliseconds} {wakes : List Wake} :
    (acquireLockTraced r m i now timeout wakes).Disciplined held ↔
      held .lockManager = none ∧ m.NeverRetries r i now timeout wakes := by
  rw [acquireLockTraced, Traced.disciplined_guarded_iff, NeverRetries, acquireLock]
  apply and_congr_right
  intro _
  rcases hfirst : m.firstConflict r (m.keyLocks.bucket r.key) with _ | existing
  · exact iff_of_true (Traced.disciplined_pure _) fun _ hnone => by cases hnone
  · dsimp only
    split_ifs with hcycle
    · refine iff_of_true (Traced.disciplined_pure _) ?_
      rintro _ ⟨⟩
      exact Or.inl hcycle
    · rw [Traced.disciplined_bind_iff]
      constructor
      · rintro ⟨-, h⟩ _ ⟨⟩
        refine Or.inr ?_
        intro wake hwake
        rcases wakes with _ | ⟨first, wakes⟩
        · cases hwake
        · obtain rfl := Option.some.inj hwake
          by_contra hlate
          -- the next call finds the mutex locked
          have hawake := (Traced.disciplined_bind_iff.mp (h () rfl)).2 () rfl
          rw [if_neg hlate] at hawake
          have hfree := lockManager_free_of_acquireLockTraced hawake
          rw [Traced.lock, Held.afterAll, List.foldl_cons, List.foldl_nil, Held.after,
            Function.update_self] at hfree
          cases hfree
      · intro h
        refine ⟨Traced.disciplined_unlock _, ?_⟩
        intro _ _
        rcases wakes with _ | ⟨wake, wakes⟩
        · trivial
        · have hlate := (h existing rfl).resolve_left hcycle wake rfl
          refine Traced.disciplined_bind_iff.mpr ⟨?_, ?_⟩
          · rw [Traced.disciplined_lock_iff, Traced.unlock, Held.afterAll, List.foldl_cons,
              List.foldl_nil, Held.after, Function.update_self]
          · intro _ _
            rw [if_pos hlate]
            exact Traced.disciplined_pure _

end DefaultLockManager

/-! ## The transaction manager -/

namespace DefaultTransactionManager

variable {m : DefaultTransactionManager} {held : Held ManagerMutex} {id : TransactionId}

theorem disciplined_releaseAllLocksTraced_iff {i : IterationOrder} :
    (m.releaseAllLocksTraced i id).Disciplined held ↔
      held .lockManager = none ∧ m.lockManager.ListsNoLock id := by
  rw [releaseAllLocksTraced, Traced.disciplined_bind_iff,
    DefaultLockManager.disciplined_releaseAllLocksTraced_iff]
  exact and_iff_left fun _ _ => Traced.disciplined_pure _

/-- What a section under the mutex of the transaction manager leaves of the other one. -/
theorem update_transactionManager {mode : Mode} :
    Function.update held .transactionManager (some mode) .lockManager = held .lockManager :=
  Function.update_of_ne (by decide) _ _

/-- A transaction that fails to validate is unknown or expired. -/
theorem isExpired_of_validateTransaction_error {now : TimePoint} {failure : Failure}
    (hvalid : m.validateTransaction now id = .error failure) {tx : DistributedTransaction}
    (htx : m.transactions.lookup id = some tx) : tx.isExpired now ≠ false := by
  intro hlive
  rw [validateTransaction_eq_ok.mpr ⟨htx, hlive⟩] at hvalid
  cases hvalid

theorem disciplined_abortTransactionTraced_iff {i : IterationOrder} {clock : ℕ → TimePoint} :
    (m.abortTransactionTraced i clock id).Disciplined held ↔
      held .transactionManager = none ∧
        ∀ tx ∈ m.transactions.lookup id, tx.isExpired (clock 0) = false →
          held .lockManager = none ∧ m.lockManager.ListsNoLock id := by
  rw [abortTransactionTraced, Traced.disciplined_guarded_iff]
  apply and_congr_right
  intro _
  rcases hvalid : m.validateTransaction (clock 0) id with failure | tx
  · refine iff_of_true (Traced.disciplined_pure _) ?_
    intro tx htx hexpired
    exact absurd hexpired (isExpired_of_validateTransaction_error hvalid htx)
  · obtain ⟨htx, hexpired⟩ := validateTransaction_eq_ok.mp hvalid
    dsimp only [rollbackTransactionOperations]
    rw [Traced.disciplined_bind_iff, disciplined_releaseAllLocksTraced_iff,
      update_transactionManager]
    constructor
    · intro h found hfound _
      exact h.1
    · intro h
      exact ⟨h tx htx hexpired, fun _ _ => Traced.disciplined_pure _⟩

theorem disciplined_commitTransactionTraced_iff {i : IterationOrder} {clock : ℕ → TimePoint} :
    (m.commitTransactionTraced i clock id).Disciplined held ↔
      held .transactionManager = none ∧
        ∀ tx ∈ m.transactions.lookup id, tx.Committable (clock 0) → ¬ tx.Refused →
          held .lockManager = none ∧ m.lockManager.ListsNoLock id := by
  rw [commitTransactionTraced, Traced.disciplined_guarded_iff]
  apply and_congr_right
  intro _
  rcases hvalid : m.validateTransaction (clock 0) id with failure | tx
  · refine iff_of_true (Traced.disciplined_pure _) ?_
    intro tx htx hcommit
    exact absurd hcommit.1 (isExpired_of_validateTransaction_error hvalid htx)
  · obtain ⟨htx, hexpired⟩ := validateTransaction_eq_ok.mp hvalid
    dsimp only
    rw [sendPrepareMessages, sendMessages_setTransaction, sendCommitMessages,
      sendMessages_setTransaction]
    split_ifs with hactive hvotes
    · refine iff_of_true (Traced.disciplined_pure _) ?_
      intro found hfound hcommit
      obtain rfl := Option.some.inj (htx.symm.trans hfound)
      exact absurd hcommit.2 hactive
    · refine iff_of_true (Traced.disciplined_pure _) ?_
      intro found hfound _ hrefused
      obtain rfl := Option.some.inj (htx.symm.trans hfound)
      rw [Bool.not_eq_true'] at hvotes
      exact absurd (DistributedTransaction.refused_iff.mpr hvotes) hrefused
    · dsimp only [applyTransactionOperations]
      rw [Traced.disciplined_bind_iff, disciplined_releaseAllLocksTraced_iff,
        update_transactionManager]
      have hrefused : ¬ tx.Refused := by
        rw [DistributedTransaction.refused_iff]
        simpa using hvotes
      constructor
      · intro h found hfound _ _
        exact h.1
      · intro h
        exact ⟨h tx htx ⟨hexpired, not_not.mp hactive⟩ hrefused,
          fun _ _ => Traced.disciplined_pure _⟩

/-- The loop of `cleanup_expired_transactions` locks the mutex that its caller owns. -/
theorem disciplined_abortTransactionsTraced_iff (hheld : held .transactionManager ≠ none)
    {i : IterationOrder} {clock : TransactionId → ℕ → TimePoint} {ids : List TransactionId} :
    (abortTransactionsTraced i clock m ids).Disciplined held ↔ ids = [] := by
  rcases ids with _ | ⟨t, ids⟩
  · exact iff_of_true (Traced.disciplined_pure _) rfl
  · refine iff_of_false ?_ (List.cons_ne_nil t ids)
    intro h
    rw [abortTransactionsTraced, Traced.disciplined_bind_iff] at h
    exact hheld (disciplined_abortTransactionTraced_iff.mp h.1).1

theorem disciplined_cleanupExpiredTransactionsTraced_iff {i : IterationOrder}
    {seen : TransactionId → TimePoint} {clock : TransactionId → ℕ → TimePoint} :
    (m.cleanupExpiredTransactionsTraced i seen clock).Disciplined held ↔
      held .transactionManager = none ∧
        ∀ t, ∀ tx ∈ m.transactions.lookup t, tx.isExpired (seen t) = false := by
  have howned : Function.update held .transactionManager (some Mode.exclusive) .transactionManager
      ≠ none := by
    rw [Function.update_self]
    exact Option.some_ne_none _
  rw [cleanupExpiredTransactionsTraced, Traced.disciplined_guarded_iff,
    disciplined_abortTransactionsTraced_iff howned, List.filter_eq_nil_iff]
  apply and_congr_right
  intro _
  constructor
  · intro h t tx htx
    have hmem : t ∈ i.order m.transactions.keys :=
      (IterationOrder.mem_order i).mpr (AList.mem_keys.mp (mem_of_lookup htx))
    have hnot := h t hmem
    rw [show m.transactions.lookup t = some tx from htx] at hnot
    exact Bool.eq_false_iff.mpr hnot
  · intro h t _
    rcases htx : m.transactions.lookup t with _ | tx
    · exact Bool.false_ne_true
    · exact Bool.eq_false_iff.mp (h t tx htx)

theorem disciplined_dataOperationTraced_iff {i : IterationOrder} {now entry : TimePoint}
    {wakes : List Wake} {clock : ℕ → TimePoint} {key : MultiLevelKey} {operation : DataOperation} :
    (m.dataOperationTraced i now entry wakes clock id key operation).Disciplined held ↔
      held .transactionManager = none ∧
        ∀ tx ∈ m.transactions.lookup id, tx.isExpired now = false →
          ∀ type ∈ operation.lockType tx.isolationLevel, held .lockManager = none ∧
            m.lockManager.NeverRetries ⟨id, key, type⟩ i entry acquireTimeout wakes := by
  rw [dataOperationTraced, Traced.disciplined_guarded_iff, startCall]
  apply and_congr_right
  intro _
  rcases hvalid : m.validateTransaction now id with failure | tx
  · refine iff_of_true (Traced.disciplined_pure _) ?_
    intro tx htx hexpired
    exact absurd hexpired (isExpired_of_validateTransaction_error hvalid htx)
  · obtain ⟨htx, hexpired⟩ := validateTransaction_eq_ok.mp hvalid
    dsimp only
    rcases htype : operation.lockType tx.isolationLevel with _ | type
    · refine iff_of_true (Traced.disciplined_pure _) ?_
      intro found hfound _ type hneeds
      obtain rfl := Option.some.inj (htx.symm.trans hfound)
      rw [htype] at hneeds
      cases hneeds
    · dsimp only [DataCall.lockCall]
      rw [Traced.disciplined_bind_iff, DefaultLockManager.disciplined_acquireLockTraced_iff,
        update_transactionManager]
      constructor
      · intro h found hfound _ needed hneeded
        obtain rfl := Option.some.inj (htx.symm.trans hfound)
        obtain rfl := Option.some.inj (htype.symm.trans hneeded)
        exact h.1
      · intro h
        refine ⟨h tx htx hexpired type htype, ?_⟩
        rintro ⟨failure | lock, lockManager⟩ _
        · exact Traced.disciplined_pure _
        · exact Traced.disciplined_pure _

end DefaultTransactionManager

/-! ## Every public operation -/

/-- A public function with its arguments, and with what it reads of the clock and
finds when it wakes up. -/
inductive PublicOperation where
  | acquireLock (r : LockRequest) (order : IterationOrder) (now : TimePoint)
      (timeout : Milliseconds) (wakes : List Wake)
  | releaseLock (id : LockId)
  | releaseAllLocks (order : IterationOrder) (tx : TransactionId)
  | resolveDeadlock (order : IterationOrder) (cycle : List TransactionId)
  | beginTransaction (isolation : IsolationLevel) (now : TimePoint)
  | dataOperation (order : IterationOrder) (now entry : TimePoint) (wakes : List Wake)
      (clock : ℕ → TimePoint) (id : TransactionId) (key : MultiLevelKey) (operation : DataOperation)
  | prepare (clock : ℕ → TimePoint) (id : TransactionId)
  | commitTransaction (order : IterationOrder) (clock : ℕ → TimePoint) (id : TransactionId)
  | abortTransaction (order : IterationOrder) (clock : ℕ → TimePoint) (id : TransactionId)
  | handleTpcMessage (message : TpcMessage)
  | cleanupExpiredTransactions (order : IterationOrder) (seen : TransactionId → TimePoint)
      (clock : TransactionId → ℕ → TimePoint)

namespace PublicOperation

/-- The events that the operation makes on the two mutexes. -/
def events (m : DefaultTransactionManager) : PublicOperation → List (Event ManagerMutex)
  | acquireLock r order now timeout wakes =>
      (DefaultLockManager.acquireLockTraced r m.lockManager order now timeout wakes).events
  | releaseLock id => (m.lockManager.releaseLockTraced id).events
  | releaseAllLocks order tx => (m.lockManager.releaseAllLocksTraced order tx).events
  | resolveDeadlock order cycle => (m.lockManager.resolveDeadlockTraced order cycle).events
  | beginTransaction isolation now => (m.beginTransactionTraced isolation now).events
  | dataOperation order now entry wakes clock id key operation =>
      (m.dataOperationTraced order now entry wakes clock id key operation).events
  | prepare clock id => (m.prepareTraced clock id).events
  | commitTransaction order clock id => (m.commitTransactionTraced order clock id).events
  | abortTransaction order clock id => (m.abortTransactionTraced order clock id).events
  | handleTpcMessage message => (m.handleTpcMessageTraced message).events
  | cleanupExpiredTransactions order seen clock =>
      (m.cleanupExpiredTransactionsTraced order seen clock).events

/-- The operation does not come to a call that locks a mutex of its caller: there
are no locks to release, no expired transactions to abort, and no retry. -/
def NestsNoMutex (m : DefaultTransactionManager) : PublicOperation → Prop
  | acquireLock r order now timeout wakes => m.lockManager.NeverRetries r order now timeout wakes
  | releaseLock _ => True
  | releaseAllLocks _ tx => m.lockManager.ListsNoLock tx
  | resolveDeadlock _ cycle => ∀ victim ∈ cycle.max?, m.lockManager.ListsNoLock victim
  | beginTransaction _ _ => True
  | dataOperation order now entry wakes _ id key operation =>
      ∀ tx ∈ m.transactions.lookup id, tx.isExpired now = false →
        ∀ type ∈ operation.lockType tx.isolationLevel,
          m.lockManager.NeverRetries ⟨id, key, type⟩ order entry acquireTimeout wakes
  | prepare _ _ => True
  | commitTransaction _ clock id => ∀ tx ∈ m.transactions.lookup id,
      tx.Committable (clock 0) → ¬ tx.Refused → m.lockManager.ListsNoLock id
  | abortTransaction _ clock id => ∀ tx ∈ m.transactions.lookup id,
      tx.isExpired (clock 0) = false → m.lockManager.ListsNoLock id
  | handleTpcMessage _ => True
  | cleanupExpiredTransactions _ seen _ => ∀ t, ∀ tx ∈ m.transactions.lookup t,
      tx.isExpired (seen t) = false

/-- A section that calls nothing. -/
theorem disciplined_section {α : Type} (mutex : ManagerMutex) (a : α) :
    (Traced.guarded mutex .exclusive (pure a)).Disciplined noMutex :=
  Traced.disciplined_guarded_iff.mpr ⟨rfl, Traced.disciplined_pure a⟩

/-- **Which operations lock a mutex twice**: in every state, an operation that is
started by a thread with neither mutex locks no mutex that the thread owns by
then, iff it does not come to a nested call. -/
theorem disciplined_iff_nestsNoMutex (m : DefaultTransactionManager) (operation : PublicOperation) :
    SharedMutex.Disciplined noMutex (operation.events m) ↔ operation.NestsNoMutex m := by
  cases operation with
  | acquireLock r order now timeout wakes =>
      exact DefaultLockManager.disciplined_acquireLockTraced_iff.trans (and_iff_right rfl)
  | releaseLock id => exact iff_of_true (disciplined_section .lockManager _) trivial
  | releaseAllLocks order tx =>
      exact DefaultLockManager.disciplined_releaseAllLocksTraced_iff.trans (and_iff_right rfl)
  | resolveDeadlock order cycle =>
      refine DefaultLockManager.disciplined_resolveDeadlockTraced_iff.trans ?_
      exact forall₂_congr fun _ _ => and_iff_right rfl
  | beginTransaction isolation now =>
      exact iff_of_true (disciplined_section .transactionManager _) trivial
  | dataOperation order now entry wakes clock id key operation =>
      refine DefaultTransactionManager.disciplined_dataOperationTraced_iff.trans ?_
      refine (and_iff_right rfl).trans ?_
      exact forall₅_congr fun _ _ _ _ _ => and_iff_right rfl
  | prepare clock id => exact iff_of_true (disciplined_section .transactionManager _) trivial
  | commitTransaction order clock id =>
      refine DefaultTransactionManager.disciplined_commitTransactionTraced_iff.trans ?_
      refine (and_iff_right rfl).trans ?_
      exact forall₄_congr fun _ _ _ _ => and_iff_right rfl
  | abortTransaction order clock id =>
      refine DefaultTransactionManager.disciplined_abortTransactionTraced_iff.trans ?_
      refine (and_iff_right rfl).trans ?_
      exact forall₃_congr fun _ _ _ => and_iff_right rfl
  | handleTpcMessage message =>
      exact iff_of_true (disciplined_section .transactionManager _) trivial
  | cleanupExpiredTransactions order seen clock =>
      exact DefaultTransactionManager.disciplined_cleanupExpiredTransactionsTraced_iff.trans
        (and_iff_right rfl)

/-- A transaction has removed a row. -/
def sampleRemoved : List TransactionAction :=
  [.start, .beginTransaction .readCommitted 0, .call 0 1 ⟨[97], []⟩ .remove,
    .acquire 0 (momentAt 0), .record 0 fun _ => 0]

/-- **The commit of a transaction with a lock** locks the mutex of the lock
manager twice. -/
theorem not_disciplined_commit :
    ¬ SharedMutex.Disciplined noMutex
      ((commitTransaction IterationOrder.listed (fun _ => 0) 1).events
        (TransactionSystem.create.run sampleRemoved).manager) := by
  decide +kernel

end PublicOperation

/-! ## Waiting under `mutex_` -/

/-- The events of a data operation up to where the call stands, retries aside. -/
def DataCall.eventsSoFar (c : DataCall) : List (Event ManagerMutex) :=
  .lock .transactionManager c.operation.mutexMode ::
    match c.phase with
    | .acquiring ⟨_, .entering _⟩ => []
    | .acquiring ⟨_, .waiting _ _⟩ => [.lock .lockManager .exclusive, .unlock .lockManager]
    | .recording none => []
    | .recording (some _) => [.lock .lockManager .exclusive, .unlock .lockManager]

/-- The mode in which the call owns a mutex, if it does. -/
def DataCall.owned (c : DataCall) (mutex : ManagerMutex) : Option Mode :=
  noMutex.afterAll c.eventsSoFar mutex

/-- The modes in which calls in progress own a mutex. -/
def TransactionSystem.owners (s : TransactionSystem) (mutex : ManagerMutex) : List Mode :=
  s.calls.filterMap fun c => c.owned mutex

/-- An operation of another thread gets the mutex of the transaction manager, if
it is the first one that it locks. -/
def TransactionSystem.CanStart (s : TransactionSystem) (operation : PublicOperation) : Prop :=
  ∀ mode, (operation.events s.manager).head? = some (.lock .transactionManager mode) →
    CanLock (s.owners .transactionManager) mode

/-- A data operation that goes to sleep has made the events of a waiting call. -/
theorem DefaultTransactionManager.events_dataOperationTraced_of_sleeps
    {m : DefaultTransactionManager} {now : TimePoint} {id : TransactionId} {key : MultiLevelKey}
    {operation : DataOperation} {c : DataCall} {call sleeping : LockCall} {w : Moment}
    {lockManager : DefaultLockManager} (hstart : m.startCall now id key operation = .ok c)
    (hcall : c.lockCall = some call)
    (hsleeps : call.advance m.lockManager w = (.inr sleeping, lockManager))
    (clock : ℕ → TimePoint) :
    (m.dataOperationTraced w.order now w.now [] clock id key operation).events
      = DataCall.eventsSoFar ⟨id, key, operation, .acquiring sleeping⟩ := by
  rw [dataOperationTraced, hstart]
  obtain ⟨tx, -, -, ⟨-, rfl⟩ | ⟨type, -, rfl⟩⟩ := startCall_ok hstart
  · cases hcall
  · obtain rfl := Option.some.inj hcall
    rw [LockCall.advance] at hsleeps
    dsimp only at hsleeps
    rcases hacquire : m.lockManager.acquireLock w.order w.now ⟨id, key, type⟩ acquireTimeout with
      ⟨lock | failure | ⟨existing, deadline⟩, manager⟩
    · rw [hacquire] at hsleeps
      cases hsleeps
    · rw [hacquire] at hsleeps
      cases hsleeps
    · rw [hacquire] at hsleeps
      cases hsleeps
      dsimp only [DataCall.lockCall]
      rw [DefaultLockManager.acquireLockTraced, hacquire]
      rfl

namespace TransactionSystem

variable {s : TransactionSystem}

/-- A call in progress owns the mutex of the transaction manager in the mode of
its operation. -/
theorem owned_transactionManager (c : DataCall) :
    c.owned .transactionManager = some c.operation.mutexMode := by
  rw [DataCall.owned, DataCall.eventsSoFar]
  rcases c.phase with ⟨r, timeout | ⟨existing, deadline⟩⟩ | (_ | lock) <;> rfl

theorem owners_transactionManager :
    s.owners .transactionManager = s.calls.map fun c => c.operation.mutexMode := by
  rw [owners, ← List.filterMap_eq_map]
  apply List.filterMap_congr
  intro c _
  exact owned_transactionManager c

/-- The functions that need the mutex exclusively run when it can be locked. -/
theorem canLock_exclusive_iff : CanLock (s.owners .transactionManager) .exclusive ↔ s.calls = [] := by
  rw [owners_transactionManager]
  exact List.map_eq_nil_iff

/-- A data operation enters when it can lock the mutex in its mode. -/
theorem canLock_mutexMode_iff {operation : DataOperation} :
    CanLock (s.owners .transactionManager) operation.mutexMode ↔ s.mutexFree operation = true := by
  rw [mutexFree]
  rcases hmode : operation.sharesMutex with _ | _
  · rw [DataOperation.mutexMode, hmode, if_neg Bool.false_ne_true, if_neg Bool.false_ne_true,
      canLock_exclusive_iff, List.isEmpty_iff]
  · rw [DataOperation.mutexMode, hmode, if_pos rfl, if_pos rfl, owners_transactionManager,
      List.all_eq_true]
    show (∀ owner ∈ s.calls.map _, owner = Mode.shared) ↔ _
    rw [List.forall_mem_map]
    apply forall₂_congr
    intro c _
    rcases hc : c.operation.sharesMutex with _ | _ <;> simp [DataOperation.mutexMode, hc]

/-- **A waiting call keeps its holder from ending**: while a data operation sleeps
for a lock, no other thread can start to commit or abort the transaction that
holds it. -/
theorem waiting_blocks_ends (actions : List TransactionAction) {c : DataCall}
    (hc : c ∈ (create.run actions).calls) {r : LockRequest} {existing : LockInfo}
    {deadline : TimePoint} (hwaiting : c.phase = .acquiring ⟨r, .waiting existing deadline⟩)
    (order : IterationOrder) (clock : ℕ → TimePoint) :
    ¬ (create.run actions).CanStart (.commitTransaction order clock existing.transactionId) ∧
      ¬ (create.run actions).CanStart (.abortTransaction order clock existing.transactionId) := by
  have howned : c.owned .transactionManager = some c.operation.mutexMode := by
    rw [DataCall.owned, DataCall.eventsSoFar, hwaiting]
    rfl
  have howner : c.operation.mutexMode ∈ (create.run actions).owners .transactionManager :=
    List.mem_filterMap.mpr ⟨c, hc, howned⟩
  have hblocked := not_canLock_exclusive howner
  constructor
  · intro hstart
    apply hblocked
    apply hstart
    rw [PublicOperation.events, DefaultTransactionManager.commitTransactionTraced]
    exact Traced.head?_events_guarded _ _ _
  · intro hstart
    apply hblocked
    apply hstart
    rw [PublicOperation.events, DefaultTransactionManager.abortTransactionTraced]
    exact Traced.head?_events_guarded _ _ _

/-- The second transaction waits for the row that the first one has removed. -/
def sampleBlocked : List TransactionAction :=
  [.start, .beginTransaction .readCommitted 0, .beginTransaction .readCommitted 0,
    .call 0 1 ⟨[97], []⟩ .remove, .acquire 0 (momentAt 0), .record 0 fun _ => 0,
    .call 0 2 ⟨[97], []⟩ .remove, .acquire 0 (momentAt 0)]

/-- The lock that it waits for. -/
def sampleObstacle : LockInfo := ⟨"lock_1", .exclusive, 1, ⟨[97], []⟩, 0, 5000⟩

theorem sampleBlocked_waits : ∃ c ∈ (create.run sampleBlocked).calls,
    c.phase = .acquiring ⟨⟨2, ⟨[97], []⟩, .exclusive⟩, .waiting sampleObstacle 5000000000⟩ := by
  have hcalls : (create.run sampleBlocked).calls.map DataCall.lockCall = [some
      ⟨⟨2, ⟨[97], []⟩, .exclusive⟩, .waiting sampleObstacle 5000000000⟩] := by decide +kernel
  obtain ⟨c, hc, hcall⟩ := List.mem_map.mp (hcalls ▸ List.mem_singleton_self _)
  exact ⟨c, hc, DataCall.phase_of_lockCall hcall⟩

theorem waiting_blocks_ends_sampleBlocked :
    ¬ (create.run sampleBlocked).CanStart
        (.commitTransaction IterationOrder.listed (fun _ => 0) 1) ∧
      ¬ (create.run sampleBlocked).CanStart
        (.abortTransaction IterationOrder.listed (fun _ => 0) 1) := by
  obtain ⟨c, hc, hwaiting⟩ := sampleBlocked_waits
  exact waiting_blocks_ends sampleBlocked hc hwaiting IterationOrder.listed fun _ => 0

/-- **Nobody can end the transaction that is waited for.** -/
theorem not_canStart_sampleBlocked :
    ¬ ∀ c ∈ (create.run sampleBlocked).calls, ∀ r existing deadline,
      c.phase = .acquiring ⟨r, .waiting existing deadline⟩ → ∀ order clock,
        (create.run sampleBlocked).CanStart
            (.commitTransaction order clock existing.transactionId) ∨
          (create.run sampleBlocked).CanStart
            (.abortTransaction order clock existing.transactionId) := by
  intro hproceeds
  obtain ⟨c, hc, hwaiting⟩ := sampleBlocked_waits
  have hcommit : ((PublicOperation.commitTransaction IterationOrder.listed (fun _ => 0) 1).events
      (create.run sampleBlocked).manager).head? = some (.lock .transactionManager .exclusive) := by
    rfl
  have habort : ((PublicOperation.abortTransaction IterationOrder.listed (fun _ => 0) 1).events
      (create.run sampleBlocked).manager).head? = some (.lock .transactionManager .exclusive) := by
    rfl
  have howners : (create.run sampleBlocked).owners .transactionManager = [.exclusive] := by
    decide +kernel
  have hfree : CanLock ((create.run sampleBlocked).owners .transactionManager) .exclusive := by
    rcases hproceeds c hc _ _ _ hwaiting IterationOrder.listed fun _ => 0 with hstart | hstart
    · exact hstart .exclusive hcommit
    · exact hstart .exclusive habort
  rw [howners] at hfree
  exact absurd hfree (List.cons_ne_nil _ _)

end TransactionSystem

end QcDatabase
