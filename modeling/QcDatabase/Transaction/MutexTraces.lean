/-
# The mutexes that each function locks

`DefaultLockManager` and `DefaultTransactionManager` have a `std::shared_mutex`
each.  The functions are written once more here, with the events that they make
on these mutexes, in the order of the source: every public function is a section
under the mutex of its class, and public functions that a section calls are
sections again.  `…Traced` functions return what the plain ones return.

`acquire_lock` unlocks its mutex for a sleep of ten milliseconds; what it finds
afterwards is given by its wake-ups (`Wake`).
-/
import QcDatabase.Lib.SharedMutex
import QcDatabase.Transaction.TwoPhaseCommit

open SharedMutex UnorderedMap

namespace QcDatabase

/-- The two mutexes. -/
inductive ManagerMutex where
  | lockManager
  | transactionManager
  deriving DecidableEq

/-- What a sleeping call of `acquire_lock` wakes up to: the lock manager, the
readings of its check, and the reading when it enters the function again. -/
structure Wake where
  manager : DefaultLockManager
  moment : Moment
  entry : TimePoint

/-! ## The lock manager -/

namespace DefaultLockManager

/-- `DefaultLockManager::release_lock`. -/
def releaseLockTraced (m : DefaultLockManager) (id : LockId) :
    Traced ManagerMutex (Result Unit × DefaultLockManager) :=
  Traced.guarded .lockManager .exclusive (pure (m.releaseLock id))

/-- The loop of `release_all_locks`. -/
def releaseLocksTraced (m : DefaultLockManager) :
    List LockId → Traced ManagerMutex DefaultLockManager
  | [] => pure m
  | id :: ids => do
      let (_, m) ← m.releaseLockTraced id
      m.releaseLocksTraced ids

/-- `DefaultLockManager::release_all_locks`. -/
def releaseAllLocksTraced (m : DefaultLockManager) (i : IterationOrder) (tx : TransactionId) :
    Traced ManagerMutex (Result Unit × DefaultLockManager) :=
  Traced.guarded .lockManager .exclusive
    (match m.transactionLocks.lookup tx with
    | none => pure (.ok (), m)
    | some ids => do
        let released ← m.releaseLocksTraced (i.order ids)
        return (.ok (), { released with waitGraph := released.waitGraph.erase tx }))

/-- `DefaultLockManager::cleanup_expired_locks`. -/
def cleanupExpiredLocksTraced (m : DefaultLockManager) (i : IterationOrder)
    (clock : LockId → TimePoint) : Traced ManagerMutex DefaultLockManager :=
  Traced.guarded .lockManager .exclusive
    (let expired := (i.order m.locks.entries).filter fun entry => entry.2.isExpired (clock entry.1)
    m.releaseLocksTraced (expired.map Sigma.fst))

/-- `DefaultLockManager::resolve_deadlock`. -/
def resolveDeadlockTraced (m : DefaultLockManager) (i : IterationOrder)
    (cycle : List TransactionId) : Traced ManagerMutex (Result Unit × DefaultLockManager) :=
  match cycle.max? with
  | none => pure (.error ⟨.invalidArgument, "Empty deadlock cycle"⟩, m)
  | some victim => m.releaseAllLocksTraced i victim

/-- `DefaultLockManager::acquire_lock`: a call that sleeps longer than its wake-ups
tell has not returned. -/
def acquireLockTraced (r : LockRequest) (m : DefaultLockManager) (i : IterationOrder)
    (now : TimePoint) (timeout : Milliseconds) (wakes : List Wake) :
    Traced ManagerMutex (Result LockId × DefaultLockManager) :=
  Traced.guarded .lockManager .exclusive
    (match m.acquireLock i now r timeout with
    | (.granted id, m) => pure (.ok id, m)
    | (.refused failure, m) => pure (.error failure, m)
    | (.waiting existing deadline, _) => do
        Traced.unlock .lockManager
        match wakes with
        | [] => Traced.asleep
        | wake :: wakes => do
            Traced.lock .lockManager .exclusive
            if deadline < wake.moment.now then
              return (.error (acquisitionTimeout r.transactionId),
                wake.manager.dropWait r.transactionId
                  (LockCall.holder wake.manager existing wake.moment.dangling))
            else
              -- the call is made again with the mutex locked
              acquireLockTraced r wake.manager wake.moment.order wake.entry
                ((deadline - wake.moment.later).tdiv nanosPerMilli) wakes)

end DefaultLockManager

/-! ## The transaction manager -/

/-- The mode in which a data operation locks `mutex_`. -/
def DataOperation.mutexMode (operation : DataOperation) : Mode :=
  if operation.sharesMutex then .shared else .exclusive

namespace DefaultTransactionManager

/-- `DefaultTransactionManager::begin_transaction`. -/
def beginTransactionTraced (m : DefaultTransactionManager) (isolation : IsolationLevel)
    (now : TimePoint) : Traced ManagerMutex (Result TransactionId × DefaultTransactionManager) :=
  Traced.guarded .transactionManager .exclusive (pure (m.beginTransaction isolation now))

/-- `DefaultTransactionManager::prepare`. -/
def prepareTraced (m : DefaultTransactionManager) (clock : ℕ → TimePoint) (id : TransactionId) :
    Traced ManagerMutex (Result Unit × DefaultTransactionManager) :=
  Traced.guarded .transactionManager .exclusive (pure (m.prepare clock id))

/-- `DefaultTransactionManager::handle_tpc_message`. -/
def handleTpcMessageTraced (m : DefaultTransactionManager) (message : TpcMessage) :
    Traced ManagerMutex (Result Unit × DefaultTransactionManager) :=
  Traced.guarded .transactionManager .exclusive (pure (m.handleTpcMessage message))

/-- `lock_manager_->release_all_locks`. -/
def releaseAllLocksTraced (m : DefaultTransactionManager) (i : IterationOrder)
    (id : TransactionId) : Traced ManagerMutex DefaultTransactionManager := do
  let (_, lockManager) ← m.lockManager.releaseAllLocksTraced i id
  return { m with lockManager := lockManager }

/-- `DefaultTransactionManager::abort_transaction`. -/
def abortTransactionTraced (m : DefaultTransactionManager) (i : IterationOrder)
    (clock : ℕ → TimePoint) (id : TransactionId) :
    Traced ManagerMutex (Result Unit × DefaultTransactionManager) :=
  Traced.guarded .transactionManager .exclusive
    (match m.validateTransaction (clock 0) id with
    | .error failure => pure (.error failure, m)
    | .ok tx =>
        let aborting := (tx.setState .aborting).updateActivity (clock 1)
        match rollbackTransactionOperations aborting with
        | .error failure => pure (.error failure, m.setTransaction id aborting)
        | .ok () => do
            let released ← (m.setTransaction id aborting).releaseAllLocksTraced i id
            return (.ok (),
              (released.setTransaction id (aborting.setState .aborted)).eraseTransaction id))

/-- `DefaultTransactionManager::commit_transaction`. -/
def commitTransactionTraced (m : DefaultTransactionManager) (i : IterationOrder)
    (clock : ℕ → TimePoint) (id : TransactionId) :
    Traced ManagerMutex (Result Unit × DefaultTransactionManager) :=
  Traced.guarded .transactionManager .exclusive
    (match m.validateTransaction (clock 0) id with
    | .error failure => pure (.error failure, m)
    | .ok tx =>
        if tx.state ≠ .active then
          pure (.error ⟨.invalidState, "Transaction " ++ id.repr ++ " is not in active state"⟩, m)
        else
          let preparing := (tx.setState .preparing).updateActivity (clock 1)
          let prepared := m.setTransaction id preparing
          match prepared.sendPrepareMessages id with
          | .error failure => do
              let (_, aborted) ← (prepared.setTransaction id
                (preparing.setState .aborting)).abortTransactionTraced i (fun n => clock (n + 2)) id
              return (.error failure, aborted)
          | .ok _ =>
              if !(tx.prepareVotes.entries.all fun vote => vote.2) then
                pure (.error ⟨.transactionAborted, "Some participants failed to prepare"⟩,
                  (prepared.setTransaction id (preparing.setState .aborting)).eraseTransaction id)
              else
                let committing := (preparing.setState .committing).updateActivity (clock 2)
                let m := prepared.setTransaction id committing
                match m.sendCommitMessages id with
                | .error failure => pure (.error failure, m)
                | .ok _ =>
                    match applyTransactionOperations committing with
                    | .error failure => pure (.error failure, m)
                    | .ok () => do
                        let released ← m.releaseAllLocksTraced i id
                        return (.ok (), (released.setTransaction id
                          (committing.setState .committed)).eraseTransaction id))

/-- The loop of `cleanup_expired_transactions`. -/
def abortTransactionsTraced (i : IterationOrder) (clock : TransactionId → ℕ → TimePoint)
    (m : DefaultTransactionManager) :
    List TransactionId → Traced ManagerMutex DefaultTransactionManager
  | [] => pure m
  | id :: ids => do
      let (_, m) ← m.abortTransactionTraced i (clock id) id
      abortTransactionsTraced i clock m ids

/-- `DefaultTransactionManager::cleanup_expired_transactions`. -/
def cleanupExpiredTransactionsTraced (m : DefaultTransactionManager) (i : IterationOrder)
    (seen : TransactionId → TimePoint) (clock : TransactionId → ℕ → TimePoint) :
    Traced ManagerMutex DefaultTransactionManager :=
  Traced.guarded .transactionManager .exclusive
    (abortTransactionsTraced i clock m ((i.order m.transactions.keys).filter fun id =>
      (m.transactions.lookup id).any fun tx => tx.isExpired (seen id)))

/-- `DefaultTransactionManager::read`, `write`, `remove` and `lock`: `now` is the
reading of the check, `entry` the one of `acquire_lock`, and `clock` gives those
of the recording. -/
def dataOperationTraced (m : DefaultTransactionManager) (i : IterationOrder)
    (now entry : TimePoint) (wakes : List Wake) (clock : ℕ → TimePoint) (id : TransactionId)
    (key : MultiLevelKey) (operation : DataOperation) :
    Traced ManagerMutex (Result (Option DataEntry) × DefaultTransactionManager) :=
  Traced.guarded .transactionManager operation.mutexMode
    (match m.startCall now id key operation with
    | .error failure => pure (.error failure, m)
    | .ok c =>
        match c.lockCall with
        | none =>
            let (answer, m) := m.recordOperation clock c none
            pure (.ok answer, m)
        | some call => do
            let (result, lockManager) ←
              DefaultLockManager.acquireLockTraced call.request m.lockManager i entry
                acquireTimeout wakes
            let m := { m with lockManager := lockManager }
            match result with
            | .error failure => return (.error failure, m)
            | .ok lock =>
                let (answer, m) := m.recordOperation clock c (some lock)
                return (.ok answer, m))

end DefaultTransactionManager

/-! ## The traced functions return what the plain ones return -/

namespace DefaultLockManager

variable {m : DefaultLockManager} {r : LockRequest} {timeout : Milliseconds} {w : Moment}
  {wakes : List Wake}

theorem result_releaseLockTraced (id : LockId) :
    (m.releaseLockTraced id).result = some (m.releaseLock id) := by
  rw [releaseLockTraced, Traced.result_guarded, Traced.result_pure]

theorem result_releaseLocksTraced (ids : List LockId) :
    (m.releaseLocksTraced ids).result = some (m.releaseLocks ids) := by
  induction ids generalizing m with
  | nil => rfl
  | cons id ids ih =>
      rw [releaseLocksTraced, Traced.result_bind, result_releaseLockTraced, Option.bind_some]
      exact ih

theorem result_releaseAllLocksTraced (i : IterationOrder) (tx : TransactionId) :
    (m.releaseAllLocksTraced i tx).result = some (m.releaseAllLocks i tx) := by
  rw [releaseAllLocksTraced, releaseAllLocks, Traced.result_guarded]
  rcases m.transactionLocks.lookup tx with _ | ids
  · rfl
  · dsimp only
    rw [Traced.result_bind, result_releaseLocksTraced, Option.bind_some]
    rfl

theorem result_cleanupExpiredLocksTraced (i : IterationOrder) (clock : LockId → TimePoint) :
    (m.cleanupExpiredLocksTraced i clock).result = some (m.cleanupExpiredLocks i clock) := by
  rw [cleanupExpiredLocksTraced, cleanupExpiredLocks, Traced.result_guarded]
  exact result_releaseLocksTraced _

theorem result_resolveDeadlockTraced (i : IterationOrder) (cycle : List TransactionId) :
    (m.resolveDeadlockTraced i cycle).result = some (m.resolveDeadlock i cycle) := by
  rw [resolveDeadlockTraced, resolveDeadlock]
  rcases cycle.max? with _ | victim
  · rfl
  · exact result_releaseAllLocksTraced i victim

/-- A call that returns from its first stretch. -/
theorem result_acquireLockTraced_of_returns {result : Result LockId} {m' : DefaultLockManager}
    (h : LockCall.advance ⟨r, .entering timeout⟩ m w = (.inl result, m')) :
    (acquireLockTraced r m w.order w.now timeout wakes).result = some (result, m') := by
  rw [acquireLockTraced, Traced.result_guarded]
  rw [LockCall.advance] at h
  dsimp only at h
  rcases hacquire : m.acquireLock w.order w.now r timeout with ⟨id | failure | _, manager⟩
  · rw [hacquire] at h
    cases h
    rfl
  · rw [hacquire] at h
    cases h
    rfl
  · rw [hacquire] at h
    cases h

/-- A call that sleeps goes on from its first wake-up. -/
theorem result_acquireLockTraced_of_sleeps {sleeping : LockCall} {m' : DefaultLockManager}
    (h : LockCall.advance ⟨r, .entering timeout⟩ m w = (.inr sleeping, m')) (wake : Wake) :
    (∀ result manager, sleeping.advance wake.manager wake.moment = (.inl result, manager) →
      (acquireLockTraced r m w.order w.now timeout (wake :: wakes)).result
        = some (result, manager)) ∧
    ∀ rest manager, sleeping.advance wake.manager wake.moment
        = (.inr ⟨r, .entering rest⟩, manager) →
      (acquireLockTraced r m w.order w.now timeout (wake :: wakes)).result =
        (acquireLockTraced r manager wake.moment.order wake.entry rest wakes).result := by
  rw [acquireLockTraced, Traced.result_guarded]
  rw [LockCall.advance] at h
  dsimp only at h
  rcases hacquire : m.acquireLock w.order w.now r timeout with ⟨id | failure | ⟨existing, deadline⟩, manager⟩
  · rw [hacquire] at h
    cases h
  · rw [hacquire] at h
    cases h
  · rw [hacquire] at h
    cases h
    dsimp only
    rw [Traced.result_bind, LockCall.advance]
    dsimp only [Traced.unlock, Option.bind_some]
    rw [Traced.result_bind]
    dsimp only [Traced.lock, Option.bind_some]
    split_ifs with hlate
    · refine ⟨?_, ?_⟩
      · rintro result manager ⟨⟩
        rfl
      · rintro rest manager ⟨⟩
    · refine ⟨?_, ?_⟩
      · rintro result manager ⟨⟩
      · rintro rest manager ⟨⟩
        rfl

end DefaultLockManager

namespace DefaultTransactionManager

variable {m : DefaultTransactionManager} {id : TransactionId}

theorem result_releaseAllLocksTraced (i : IterationOrder) (id : TransactionId) :
    (m.releaseAllLocksTraced i id).result = some (m.releaseAllLocks i id) := by
  rw [releaseAllLocksTraced, Traced.result_bind,
    DefaultLockManager.result_releaseAllLocksTraced, Option.bind_some]
  rfl

theorem result_abortTransactionTraced (i : IterationOrder) (clock : ℕ → TimePoint) :
    (m.abortTransactionTraced i clock id).result = some (m.abortTransaction i clock id) := by
  rw [abortTransactionTraced, abortTransaction, Traced.result_guarded]
  rcases m.validateTransaction (clock 0) id with failure | tx
  · rfl
  · dsimp only [rollbackTransactionOperations]
    rw [Traced.result_bind, result_releaseAllLocksTraced, Option.bind_some]
    rfl

theorem result_commitTransactionTraced (i : IterationOrder) (clock : ℕ → TimePoint) :
    (m.commitTransactionTraced i clock id).result = some (m.commitTransaction i clock id) := by
  rw [commitTransactionTraced, commitTransaction, Traced.result_guarded]
  rcases m.validateTransaction (clock 0) id with failure | tx
  · rfl
  · dsimp only
    rw [sendPrepareMessages, sendMessages_setTransaction, sendCommitMessages,
      sendMessages_setTransaction]
    split_ifs with hactive hvotes
    · rfl
    · rfl
    · dsimp only [applyTransactionOperations]
      rw [Traced.result_bind, result_releaseAllLocksTraced, Option.bind_some]
      rfl

theorem result_cleanupExpiredTransactionsTraced (i : IterationOrder)
    (seen : TransactionId → TimePoint) (clock : TransactionId → ℕ → TimePoint) :
    (m.cleanupExpiredTransactionsTraced i seen clock).result
      = some (m.cleanupExpiredTransactions i seen clock) := by
  rw [cleanupExpiredTransactionsTraced, cleanupExpiredTransactions, Traced.result_guarded]
  generalize (i.order m.transactions.keys).filter _ = expired
  induction expired generalizing m with
  | nil => rfl
  | cons t expired ih =>
      rw [abortTransactionsTraced, Traced.result_bind, result_abortTransactionTraced,
        Option.bind_some]
      exact ih

end DefaultTransactionManager

end QcDatabase
