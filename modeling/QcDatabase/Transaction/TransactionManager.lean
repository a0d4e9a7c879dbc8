/-
# The transaction manager (`src/transaction/transaction_manager.cpp`)

`DefaultTransactionManager`: the transactions by id, and the lock manager it
uses.  A function that holds `mutex_` exclusively and calls the lock manager at
most once is one step here; the lock manager's own mutex and the calls that the
manager makes on itself are taken as granted.

`read`, `write`, `remove` and `lock` have one shape: check the transaction,
acquire a lock, record the operation.  They differ in the lock they ask for and
in what they record, which `DataOperation` collects; as they may wait for the
lock, `startCall` and `recordOperation` are the two ends of a call.
-/
import QcDatabase.Transaction.LockManager

open UnorderedMap

namespace QcDatabase

/-! ## Types -/

/-- `TransactionState`. -/
inductive TransactionState where
  | active
  | preparing
  | prepared
  | committing
  | committed
  | aborting
  | aborted
  | timeout
  deriving DecidableEq, Repr

/-- `OperationType` of a transaction. -/
inductive OperationType where
  | read
  | write
  | delete
  | lock
  deriving DecidableEq, Repr

/-- `IsolationLevel`. -/
inductive IsolationLevel where
  | readUncommitted
  | readCommitted
  | repeatableRead
  | serializable
  deriving DecidableEq, Repr

/-- The value of the enumerator. -/
def IsolationLevel.toNat : IsolationLevel → ℕ
  | .readUncommitted => 0
  | .readCommitted => 1
  | .repeatableRead => 2
  | .serializable => 3

instance : LE IsolationLevel := ⟨fun a b => a.toNat ≤ b.toNat⟩

instance (a b : IsolationLevel) : Decidable (a ≤ b) := inferInstanceAs (Decidable (a.toNat ≤ b.toNat))

/-- `TransactionOperation`. -/
structure TransactionOperation where
  type : OperationType
  key : MultiLevelKey
  newValue : DataEntry
  timestamp : TimePoint
  deriving DecidableEq

/-- `DistributedTransaction`. -/
structure DistributedTransaction where
  transactionId : TransactionId
  participantNodes : List NodeId
  state : TransactionState
  isolationLevel : IsolationLevel
  operations : List TransactionOperation
  heldLocks : List LockId
  createdAt : TimePoint
  lastActivity : TimePoint
  timeout : Milliseconds
  prepareVotes : UnorderedMap NodeId Bool

namespace DistributedTransaction

/-- `DistributedTransaction::is_expired`. -/
def isExpired (tx : DistributedTransaction) (now : TimePoint) : Bool :=
  tx.timeout * nanosPerMilli < now - tx.lastActivity

/-- `DistributedTransaction::update_activity`. -/
def updateActivity (tx : DistributedTransaction) (now : TimePoint) : DistributedTransaction :=
  { tx with lastActivity := now }

/-- An assignment to `state`. -/
def setState (tx : DistributedTransaction) (state : TransactionState) : DistributedTransaction :=
  { tx with state := state }

end DistributedTransaction

/-- `TwoPhaseCommitMessage`. -/
inductive TwoPhaseCommitMessage where
  | prepare
  | prepareOk
  | prepareAbort
  | commit
  | commitOk
  | abort
  | abortOk
  deriving DecidableEq, Repr

/-- `TpcMessage`. -/
structure TpcMessage where
  type : TwoPhaseCommitMessage
  transactionId : TransactionId
  fromNode : NodeId
  toNode : NodeId
  deriving DecidableEq

/-- `DefaultTransactionManager`. -/
structure DefaultTransactionManager where
  transactions : UnorderedMap TransactionId DistributedTransaction
  nextTransactionId : TransactionId
  isRunning : Bool
  defaultTimeout : Milliseconds
  lockManager : DefaultLockManager

/-! ## Data operations -/

/-- The public functions that record an operation. -/
inductive DataOperation where
  | read
  | write (value : DataEntry)
  | remove
  | lock (type : LockType)
  deriving DecidableEq

/-- `std::chrono::duration_cast<Timestamp>` of the time since the epoch. -/
def toTimestamp (now : TimePoint) : Timestamp := Int64.ofInt (now.tdiv nanosPerMilli)

namespace DataOperation

/-- The lock asked for; a read below `READ_COMMITTED` asks for none. -/
def lockType (isolation : IsolationLevel) : DataOperation → Option LockType
  | .read => if IsolationLevel.readCommitted ≤ isolation then some .shared else none
  | .write _ => some .exclusive
  | .remove => some .exclusive
  | .lock type => some type

/-- `op.type`. -/
def type : DataOperation → OperationType
  | .read => .read
  | .write _ => .write
  | .remove => .delete
  | .lock _ => .lock

/-- `op.new_value`. -/
def newValue (now : TimePoint) : DataOperation → DataEntry
  | .write value => value
  | _ => DataEntry.default (toTimestamp now)

/-- Only `read` takes `mutex_` in shared mode. -/
def sharesMutex : DataOperation → Bool
  | .read => true
  | _ => false

/-- The datum of an `OK` result: `read` returns a simulated value. -/
def answer (key : MultiLevelKey) (now : TimePoint) : DataOperation → Option DataEntry
  | .read =>
      some ⟨"simulated_value_for_".toUTF8.toList ++ key.toString, 1, toTimestamp now, false⟩
  | _ => none

end DataOperation

/-- Where a call of a data operation stands: in `acquire_lock`, or about to record. -/
inductive DataPhase where
  | acquiring (call : LockCall)
  | recording (lock : Option LockId)

/-- A call of a data operation that has passed the check and not returned. -/
structure DataCall where
  transactionId : TransactionId
  key : MultiLevelKey
  operation : DataOperation
  phase : DataPhase

/-- The call of `acquire_lock` that the call is in. -/
def DataCall.lockCall (c : DataCall) : Option LockCall :=
  match c.phase with
  | .acquiring call => some call
  | .recording _ => none

theorem DataCall.phase_of_lockCall {c : DataCall} {call : LockCall} (h : c.lockCall = some call) :
    c.phase = .acquiring call := by
  rw [lockCall] at h
  rcases hphase : c.phase with found | lock
  · rw [hphase] at h
    rw [Option.some.inj h]
  · rw [hphase] at h
    cases h

/-- The timeout that the data operations give to `acquire_lock`. -/
def acquireTimeout : Milliseconds := 5000

namespace DefaultTransactionManager

/-- `DefaultTransactionManager::DefaultTransactionManager`. -/
def create : DefaultTransactionManager := ⟨∅, 1, false, 30000, DefaultLockManager.create⟩

/-- Put a record in place. -/
def setTransaction (m : DefaultTransactionManager) (id : TransactionId)
    (tx : DistributedTransaction) : DefaultTransactionManager :=
  { m with transactions := m.transactions.insert id tx }

/-- `transactions_.erase`. -/
def eraseTransaction (m : DefaultTransactionManager) (id : TransactionId) :
    DefaultTransactionManager :=
  { m with transactions := m.transactions.erase id }

/-- `lock_manager_->release_all_locks`. -/
def releaseAllLocks (m : DefaultTransactionManager) (i : IterationOrder) (id : TransactionId) :
    DefaultTransactionManager :=
  { m with lockManager := (m.lockManager.releaseAllLocks i id).2 }

/-! ## Life cycle -/

/-- `DefaultTransactionManager::start`. -/
def start (m : DefaultTransactionManager) : Result Unit × DefaultTransactionManager :=
  (.ok (), { m with isRunning := true })

/-- `DefaultTransactionManager::stop`. -/
def stop (m : DefaultTransactionManager) : Result Unit × DefaultTransactionManager :=
  (.ok (), { m with isRunning := false })

/-- `DefaultTransactionManager::set_default_timeout`. -/
def setDefaultTimeout (m : DefaultTransactionManager) (timeout : Milliseconds) :
    DefaultTransactionManager :=
  { m with defaultTimeout := timeout }

/-- `DefaultTransactionManager::begin_transaction`. -/
def beginTransaction (m : DefaultTransactionManager) (isolation : IsolationLevel)
    (now : TimePoint) : Result TransactionId × DefaultTransactionManager :=
  if !m.isRunning then
    (.error ⟨.serviceUnavailable, "Transaction manager is not running"⟩, m)
  else
    (.ok m.nextTransactionId,
      { m with
        transactions := m.transactions.insert m.nextTransactionId
          ⟨m.nextTransactionId, [], .active, isolation, [], [], now, now, m.defaultTimeout, ∅⟩
        nextTransactionId := m.nextTransactionId + 1 })

/-- `DefaultTransactionManager::validate_transaction`, with the record that the
callers look up after an `OK`. -/
def validateTransaction (m : DefaultTransactionManager) (now : TimePoint) (id : TransactionId) :
    Result DistributedTransaction :=
  match m.transactions.lookup id with
  | none => .error ⟨.notFound, "Transaction " ++ id.repr ++ " not found"⟩
  | some tx =>
      if tx.isExpired now then .error ⟨.timeout, "Transaction " ++ id.repr ++ " has expired"⟩
      else .ok tx

/-! ## Two-phase commit -/

/-- The messages that one of the `send_…_messages` functions makes; there is no
network behind them. -/
def sendMessages (m : DefaultTransactionManager) (type : TwoPhaseCommitMessage)
    (id : TransactionId) : Result (List TpcMessage) :=
  match m.transactions.lookup id with
  | none => .error ⟨.notFound, "Transaction not found"⟩
  | some tx => .ok (tx.participantNodes.map fun node => ⟨type, id, [], node⟩)

/-- `DefaultTransactionManager::send_prepare_messages`. -/
def sendPrepareMessages (m : DefaultTransactionManager) (id : TransactionId) :
    Result (List TpcMessage) :=
  m.sendMessages .prepare id

/-- `DefaultTransactionManager::send_commit_messages`. -/
def sendCommitMessages (m : DefaultTransactionManager) (id : TransactionId) :
    Result (List TpcMessage) :=
  m.sendMessages .commit id

/-- `DefaultTransactionManager::apply_transaction_operations`: the cases of its
loop are empty. -/
def applyTransactionOperations (_ : DistributedTransaction) : Result Unit := .ok ()

/-- `DefaultTransactionManager::rollback_transaction_operations`: the cases of
its loop are empty. -/
def rollbackTransactionOperations (_ : DistributedTransaction) : Result Unit := .ok ()

/-- `DefaultTransactionManager::abort_transaction`; `clock` gives the readings of
the system clock in their order. -/
def abortTransaction (m : DefaultTransactionManager) (i : IterationOrder) (clock : ℕ → TimePoint)
    (id : TransactionId) : Result Unit × DefaultTransactionManager :=
  match m.validateTransaction (clock 0) id with
  | .error failure => (.error failure, m)
  | .ok tx =>
      let aborting := (tx.setState .aborting).updateActivity (clock 1)
      match rollbackTransactionOperations aborting with
      | .error failure => (.error failure, m.setTransaction id aborting)
      | .ok () =>
          let released := (m.setTransaction id aborting).releaseAllLocks i id
          (.ok (), (released.setTransaction id (aborting.setState .aborted)).eraseTransaction id)

/-- `DefaultTransactionManager::commit_transaction`. -/
def commitTransaction (m : DefaultTransactionManager) (i : IterationOrder) (clock : ℕ → TimePoint)
    (id : TransactionId) : Result Unit × DefaultTransactionManager :=
  match m.validateTransaction (clock 0) id with
  | .error failure => (.error failure, m)
  | .ok tx =>
      if tx.state ≠ .active then
        (.error ⟨.invalidState, "Transaction " ++ id.repr ++ " is not in active state"⟩, m)
      else
        let preparing := (tx.setState .preparing).updateActivity (clock 1)
        let prepared := m.setTransaction id preparing
        match prepared.sendPrepareMessages id with
        | .error failure =>
            (.error failure,
              ((prepared.setTransaction id (preparing.setState .aborting)).abortTransaction i
                (fun n => clock (n + 2)) id).2)
        | .ok _ =>
            if !(tx.prepareVotes.entries.all fun vote => vote.2) then
              -- the transaction is dropped here with its locks still held
              (.error ⟨.transactionAborted, "Some participants failed to prepare"⟩,
                (prepared.setTransaction id (preparing.setState .aborting)).eraseTransaction id)
            else
              let committing := (preparing.setState .committing).updateActivity (clock 2)
              let m := prepared.setTransaction id committing
              match m.sendCommitMessages id with
              | .error failure => (.error failure, m)
              | .ok _ =>
                  match applyTransactionOperations committing with
                  | .error failure => (.error failure, m)
                  | .ok () =>
                      (.ok (), ((m.releaseAllLocks i id).setTransaction id
                        (committing.setState .committed)).eraseTransaction id)

/-- `DefaultTransactionManager::prepare`. -/
def prepare (m : DefaultTransactionManager) (clock : ℕ → TimePoint) (id : TransactionId) :
    Result Unit × DefaultTransactionManager :=
  match m.validateTransaction (clock 0) id with
  | .error failure => (.error failure, m)
  | .ok tx =>
      if tx.state ≠ .active then
        (.error ⟨.invalidState, "Transaction " ++ id.repr ++ " is not in active state"⟩, m)
      else (.ok (), m.setTransaction id ((tx.setState .prepared).updateActivity (clock 1)))

/-- Change the record of a transaction that a message names, if there is one. -/
def modifyTransaction (m : DefaultTransactionManager) (id : TransactionId)
    (f : DistributedTransaction → DistributedTransaction) : DefaultTransactionManager :=
  match m.transactions.lookup id with
  | none => m
  | some tx => m.setTransaction id (f tx)

/-- `DefaultTransactionManager::handle_prepare_message`. -/
def handlePrepareMessage (m : DefaultTransactionManager) (message : TpcMessage) :
    DefaultTransactionManager :=
  m.modifyTransaction message.transactionId fun tx => tx.setState .prepared

/-- `DefaultTransactionManager::handle_prepare_response`. -/
def handlePrepareResponse (m : DefaultTransactionManager) (message : TpcMessage) :
    DefaultTransactionManager :=
  m.modifyTransaction message.transactionId fun tx =>
    { tx with prepareVotes := tx.prepareVotes.insert message.fromNode (message.type = .prepareOk) }

/-- `DefaultTransactionManager::handle_commit_message`. -/
def handleCommitMessage (m : DefaultTransactionManager) (message : TpcMessage) :
    DefaultTransactionManager :=
  m.modifyTransaction message.transactionId fun tx => tx.setState .committed

/-- `DefaultTransactionManager::handle_abort_message`. -/
def handleAbortMessage (m : DefaultTransactionManager) (message : TpcMessage) :
    DefaultTransactionManager :=
  m.modifyTransaction message.transactionId fun tx => tx.setState .aborted

/-- `DefaultTransactionManager::handle_tpc_message`. -/
def handleTpcMessage (m : DefaultTransactionManager) (message : TpcMessage) :
    Result Unit × DefaultTransactionManager :=
  match message.type with
  | .prepare => (.ok (), m.handlePrepareMessage message)
  | .prepareOk => (.ok (), m.handlePrepareResponse message)
  | .prepareAbort => (.ok (), m.handlePrepareResponse message)
  | .commit => (.ok (), m.handleCommitMessage message)
  | .abort => (.ok (), m.handleAbortMessage message)
  | .commitOk => (.error ⟨.invalidArgument, "Unknown TPC message type"⟩, m)
  | .abortOk => (.error ⟨.invalidArgument, "Unknown TPC message type"⟩, m)

/-- `DefaultTransactionManager::get_transaction_state`: a transaction that is not
there counts as aborted. -/
def getTransactionState (m : DefaultTransactionManager) (id : TransactionId) : TransactionState :=
  match m.transactions.lookup id with
  | none => .aborted
  | some tx => tx.state

/-- `DefaultTransactionManager::cleanup_expired_transactions`; `seen` is the clock
when a transaction is looked at, `clock` the readings of the call that aborts it. -/
def cleanupExpiredTransactions (m : DefaultTransactionManager) (i : IterationOrder)
    (seen : TransactionId → TimePoint) (clock : TransactionId → ℕ → TimePoint) :
    DefaultTransactionManager :=
  let expired := (i.order m.transactions.keys).filter fun id =>
    (m.transactions.lookup id).any fun tx => tx.isExpired (seen id)
  expired.foldl (fun m id => (m.abortTransaction i (clock id) id).2) m

/-! ## The two ends of a data operation -/

/-- A data operation from its entry up to `acquire_lock`. -/
def startCall (m : DefaultTransactionManager) (now : TimePoint) (id : TransactionId)
    (key : MultiLevelKey) (operation : DataOperation) : Result DataCall :=
  match m.validateTransaction now id with
  | .error failure => .error failure
  | .ok tx =>
      match operation.lockType tx.isolationLevel with
      | none => .ok ⟨id, key, operation, .recording none⟩
      | some type =>
          .ok ⟨id, key, operation, .acquiring ⟨⟨id, key, type⟩, .entering acquireTimeout⟩⟩

/-- A data operation from the return of `acquire_lock` on. -/
def recordOperation (m : DefaultTransactionManager) (clock : ℕ → TimePoint) (c : DataCall)
    (lock : Option LockId) : Option DataEntry × DefaultTransactionManager :=
  match m.transactions.lookup c.transactionId with
  | none => (none, m)
  | some tx =>
      let op : TransactionOperation :=
        ⟨c.operation.type, c.key, c.operation.newValue (clock 0), clock 1⟩
      let held : List LockId :=
        match lock with
        | none => tx.heldLocks
        | some id => tx.heldLocks.insert id
      let recorded := { tx with heldLocks := held, operations := tx.operations ++ [op] }
      (c.operation.answer c.key (clock 3),
        m.setTransaction c.transactionId (recorded.updateActivity (clock 2)))

/-! ## What the functions come to -/

section

variable {m : DefaultTransactionManager} {id : TransactionId} {tx : DistributedTransaction}
  {now : TimePoint}

theorem lookup_setTransaction (t : TransactionId) :
    (m.setTransaction id tx).transactions.lookup t =
      if t = id then some tx else m.transactions.lookup t := by
  rw [setTransaction]
  by_cases ht : t = id
  · rw [if_pos ht, ht]
    exact AList.lookup_insert _
  · rw [if_neg ht]
    exact AList.lookup_insert_ne ht

theorem lookup_eraseTransaction (t : TransactionId) :
    (m.eraseTransaction id).transactions.lookup t =
      if t = id then none else m.transactions.lookup t := by
  rw [eraseTransaction]
  by_cases ht : t = id
  · rw [if_pos ht, ht]
    exact AList.lookup_erase _ _
  · rw [if_neg ht]
    exact AList.lookup_erase_ne ht

/-- Nothing is left of a record that is erased at once. -/
theorem eraseTransaction_setTransaction :
    (m.setTransaction id tx).eraseTransaction id = m.eraseTransaction id := by
  have hentries : (m.transactions.insert id tx).erase id = m.transactions.erase id := by
    apply AList.ext
    exact List.kerase_cons_eq (s := ⟨id, tx⟩) (l := List.kerase id m.transactions.entries) rfl
  rw [setTransaction, eraseTransaction, eraseTransaction]
  exact congrArg (fun transactions => { m with transactions := transactions }) hentries

theorem releaseAllLocks_setTransaction (i : IterationOrder) (t : TransactionId) :
    (m.setTransaction id tx).releaseAllLocks i t = (m.releaseAllLocks i t).setTransaction id tx :=
  rfl

theorem validateTransaction_eq_ok :
    m.validateTransaction now id = .ok tx ↔
      m.transactions.lookup id = some tx ∧ tx.isExpired now = false := by
  rw [validateTransaction]
  rcases m.transactions.lookup id with _ | found
  · simp
  · dsimp only
    split_ifs with hexpired
    · simp only [Option.some.injEq, false_iff, not_and, Bool.not_eq_false]
      rintro rfl
      exact hexpired
    · simp only [Except.ok.injEq, Option.some.injEq, iff_self_and]
      rintro rfl
      exact Bool.eq_false_iff.mpr hexpired

theorem sendMessages_setTransaction (type : TwoPhaseCommitMessage) :
    (m.setTransaction id tx).sendMessages type id =
      .ok (tx.participantNodes.map fun node => ⟨type, id, [], node⟩) := by
  rw [sendMessages, lookup_setTransaction, if_pos rfl]

/-- **`abort_transaction`** releases the locks and erases the record. -/
theorem abortTransaction_eq (i : IterationOrder) (clock : ℕ → TimePoint) :
    m.abortTransaction i clock id =
      match m.validateTransaction (clock 0) id with
      | .error failure => (.error failure, m)
      | .ok _ => (.ok (), (m.releaseAllLocks i id).eraseTransaction id) := by
  rw [abortTransaction]
  rcases m.validateTransaction (clock 0) id with failure | tx
  · rfl
  · dsimp only [rollbackTransactionOperations]
    rw [eraseTransaction_setTransaction, releaseAllLocks_setTransaction,
      eraseTransaction_setTransaction]

/-- **`commit_transaction`** erases the record of an active transaction; its
locks are released unless somebody refused. -/
theorem commitTransaction_eq (i : IterationOrder) (clock : ℕ → TimePoint) :
    m.commitTransaction i clock id =
      match m.validateTransaction (clock 0) id with
      | .error failure => (.error failure, m)
      | .ok tx =>
          if tx.state ≠ .active then
            (.error ⟨.invalidState, "Transaction " ++ id.repr ++ " is not in active state"⟩, m)
          else if !(tx.prepareVotes.entries.all fun vote => vote.2) then
            (.error ⟨.transactionAborted, "Some participants failed to prepare"⟩,
              m.eraseTransaction id)
          else (.ok (), (m.releaseAllLocks i id).eraseTransaction id) := by
  rw [commitTransaction]
  rcases m.validateTransaction (clock 0) id with failure | tx
  · rfl
  · dsimp only
    rw [sendPrepareMessages, sendMessages_setTransaction, sendCommitMessages,
      sendMessages_setTransaction]
    split_ifs with hactive hvotes
    · rfl
    · rw [eraseTransaction_setTransaction, eraseTransaction_setTransaction]
    · dsimp only [applyTransactionOperations]
      rw [eraseTransaction_setTransaction, releaseAllLocks_setTransaction,
        releaseAllLocks_setTransaction, eraseTransaction_setTransaction,
        eraseTransaction_setTransaction]

/-- A data operation that is entered finds its transaction there, and needs no
lock or is about to ask for one. -/
theorem startCall_ok {key : MultiLevelKey} {operation : DataOperation} {c : DataCall}
    (h : m.startCall now id key operation = .ok c) :
    ∃ tx, m.transactions.lookup id = some tx ∧ tx.isExpired now = false ∧
      (operation.lockType tx.isolationLevel = none ∧ c = ⟨id, key, operation, .recording none⟩ ∨
        ∃ type, operation.lockType tx.isolationLevel = some type ∧
          c = ⟨id, key, operation, .acquiring ⟨⟨id, key, type⟩, .entering acquireTimeout⟩⟩) := by
  rw [startCall] at h
  rcases hvalid : m.validateTransaction now id with failure | tx
  · rw [hvalid] at h
    cases h
  · obtain ⟨htx, hexpired⟩ := validateTransaction_eq_ok.mp hvalid
    refine ⟨tx, htx, hexpired, ?_⟩
    rw [hvalid] at h
    dsimp only at h
    rcases htype : operation.lockType tx.isolationLevel with _ | type
    · rw [htype] at h
      cases h
      exact Or.inl ⟨rfl, rfl⟩
    · rw [htype] at h
      cases h
      exact Or.inr ⟨type, rfl, rfl⟩

end

end DefaultTransactionManager

end QcDatabase
