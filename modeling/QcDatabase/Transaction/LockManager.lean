/-
# The lock manager (`src/transaction/transaction_manager.cpp`)

`DefaultLockManager`: the locks by id, the ids of each key in the order of their
grants, the ids of each transaction, and the graph of who waits for whom.

`acquire_lock` holds the mutex from its entry, or from the end of a sleep, up
to the next sleep or its return.  `acquireLock` is one such stretch, from the
entry on; `LockCall` is a call between two stretches and `LockCall.advance`
makes its next one.  The retry at the end of a sleep enters the function again,
so it is a stretch of its own.

The counters for lock and transaction ids are unbounded here: `2 ^ 64` grants or
transactions are out of reach of any run.
-/
import QcDatabase.Common.Types
import QcDatabase.Lib.CycleSearch
import QcDatabase.Lib.UnorderedMap

open UnorderedMap

namespace QcDatabase

/-! ## Types -/

/-- `TransactionId`. -/
abbrev TransactionId := ℕ

/-- `LockId`. -/
abbrev LockId := String

/-- `LockType`. -/
inductive LockType where
  | shared
  | exclusive
  | intentionShared
  | intentionExclusive
  deriving DecidableEq, Repr

/-- `LockInfo`. -/
structure LockInfo where
  lockId : LockId
  type : LockType
  transactionId : TransactionId
  key : MultiLevelKey
  acquiredAt : TimePoint
  timeout : Milliseconds
  deriving DecidableEq

/-- What `acquire_lock` is asked for. -/
structure LockRequest where
  transactionId : TransactionId
  key : MultiLevelKey
  type : LockType
  deriving DecidableEq

/-- `LockInfo::is_expired`. -/
def LockInfo.isExpired (l : LockInfo) (now : TimePoint) : Bool :=
  now - l.acquiredAt > l.timeout * nanosPerMilli

/-- `DefaultLockManager`. -/
structure DefaultLockManager where
  locks : UnorderedMap LockId LockInfo
  keyLocks : UnorderedMap MultiLevelKey (List LockId)
  transactionLocks : UnorderedMap TransactionId (List LockId)
  waitGraph : UnorderedMap TransactionId (List TransactionId)
  nextLockId : ℕ

/-- `DefaultLockManager::is_lock_compatible`. -/
def isLockCompatible (existing requested : LockType) : Bool :=
  match existing with
  | .shared => requested = .shared || requested = .intentionShared
  | .exclusive => false
  | .intentionShared => requested ≠ .exclusive
  | .intentionExclusive => requested = .intentionShared || requested = .intentionExclusive

theorem isLockCompatible_comm (a b : LockType) : isLockCompatible a b = isLockCompatible b a := by
  cases a <;> cases b <;> rfl

theorem isLockCompatible_exclusive (a : LockType) : isLockCompatible a .exclusive = false := by
  cases a <;> rfl

/-- The id made from a value of the counter, in `DefaultLockManager::generate_lock_id`. -/
def generateLockId (n : ℕ) : LockId := "lock_" ++ n.repr

theorem generateLockId_inj {n n' : ℕ} (h : generateLockId n = generateLockId n') : n = n' := by
  have hrepr : n.repr = n'.repr := (String.append_right_inj "lock_").mp h
  have hdigits : Nat.toDigits 10 n = Nat.toDigits 10 n' := by
    rw [← Nat.toList_repr, ← Nat.toList_repr, hrepr]
  calc n = Nat.ofDigitChars 10 (Nat.toDigits 10 n) 0 := Nat.ofDigitChars_ten_toDigits.symm
    _ = Nat.ofDigitChars 10 (Nat.toDigits 10 n') 0 := by rw [hdigits]
    _ = n' := Nat.ofDigitChars_ten_toDigits

namespace DefaultLockManager

/-- `DefaultLockManager::DefaultLockManager`. -/
def create : DefaultLockManager := ⟨∅, ∅, ∅, ∅, 1⟩

/-! ## The wait graph -/

/-- The transactions that `tx` is recorded to wait for. -/
def waitsFor (m : DefaultLockManager) (tx : TransactionId) : List TransactionId :=
  m.waitGraph.bucket tx

/-- `wait_graph_[tx_id].insert(holder)`. -/
def addWait (m : DefaultLockManager) (tx holder : TransactionId) : DefaultLockManager :=
  { m with waitGraph := m.waitGraph.insert tx ((m.waitsFor tx).insert holder) }

/-- `wait_graph_[tx_id].erase(holder)`. -/
def dropWait (m : DefaultLockManager) (tx holder : TransactionId) : DefaultLockManager :=
  { m with waitGraph := m.waitGraph.insert tx ((m.waitsFor tx).filter (· ≠ holder)) }

/-- `DefaultLockManager::find_cycle_in_wait_graph`. -/
def findCycleInWaitGraph (m : DefaultLockManager) (i : IterationOrder) (start : TransactionId) :
    List TransactionId :=
  CycleSearch.findCycle (fun tx => i.order (m.waitsFor tx)) (start :: members m.waitGraph) start

/-! ## Acquiring a lock -/

/-- How a stretch of `acquire_lock` from its entry on ends. -/
inductive Acquired where
  | granted (lockId : LockId)
  | refused (failure : Failure)
  | waiting (existing : LockInfo) (deadline : TimePoint)
  deriving DecidableEq

/-- The first lock among `ids` that stands in the way of a request. -/
def firstConflict (m : DefaultLockManager) (r : LockRequest) : List LockId → Option LockInfo
  | [] => none
  | id :: ids =>
      match m.locks.lookup id with
      | none => m.firstConflict r ids
      | some existing =>
          if existing.transactionId = r.transactionId then m.firstConflict r ids
          else if isLockCompatible existing.type r.type then m.firstConflict r ids
          else some existing

/-- The manager after it has granted a request. -/
def grant (m : DefaultLockManager) (r : LockRequest) (now : TimePoint) (timeout : Milliseconds) :
    DefaultLockManager :=
  let id := generateLockId m.nextLockId
  { locks := m.locks.insert id ⟨id, r.type, r.transactionId, r.key, now, timeout⟩
    keyLocks := m.keyLocks.insert r.key (m.keyLocks.bucket r.key ++ [id])
    transactionLocks := m.transactionLocks.insert r.transactionId
      ((m.transactionLocks.bucket r.transactionId).insert id)
    waitGraph := m.waitGraph.erase r.transactionId
    nextLockId := m.nextLockId + 1 }

/-- The error for a request that would close a cycle. -/
def deadlockDetected (tx : TransactionId) : Failure :=
  ⟨.deadlockDetected, "Deadlock detected involving transaction " ++ tx.repr⟩

/-- The error for a request whose deadline has passed. -/
def acquisitionTimeout (tx : TransactionId) : Failure :=
  ⟨.timeout, "Lock acquisition timeout for transaction " ++ tx.repr⟩

/-- `DefaultLockManager::acquire_lock` from its entry up to its first sleep or its return. -/
def acquireLock (m : DefaultLockManager) (i : IterationOrder) (now : TimePoint) (r : LockRequest)
    (timeout : Milliseconds) : Acquired × DefaultLockManager :=
  match m.firstConflict r (m.keyLocks.bucket r.key) with
  | none => (.granted (generateLockId m.nextLockId), m.grant r now timeout)
  | some existing =>
      let waiting := m.addWait r.transactionId existing.transactionId
      if waiting.findCycleInWaitGraph i r.transactionId ≠ [] then
        (.refused (deadlockDetected r.transactionId),
          waiting.dropWait r.transactionId existing.transactionId)
      else (.waiting existing (now + timeout * nanosPerMilli), waiting)

/-! ## Releasing locks -/

/-- `DefaultLockManager::release_lock`. -/
def releaseLock (m : DefaultLockManager) (id : LockId) : Result Unit × DefaultLockManager :=
  match m.locks.lookup id with
  | none => (.error ⟨.notFound, "Lock not found: " ++ id⟩, m)
  | some l =>
      (.ok (),
        { m with
          locks := m.locks.erase id
          keyLocks := m.keyLocks.removeFrom l.key id
          transactionLocks := m.transactionLocks.removeFrom l.transactionId id })

/-- The loop of `release_all_locks`. -/
def releaseLocks (m : DefaultLockManager) (ids : List LockId) : DefaultLockManager :=
  ids.foldl (fun m id => (m.releaseLock id).2) m

/-- `DefaultLockManager::release_all_locks`. -/
def releaseAllLocks (m : DefaultLockManager) (i : IterationOrder) (tx : TransactionId) :
    Result Unit × DefaultLockManager :=
  match m.transactionLocks.lookup tx with
  | none => (.ok (), m)
  | some ids =>
      let released := m.releaseLocks (i.order ids)
      (.ok (), { released with waitGraph := released.waitGraph.erase tx })

/-- `DefaultLockManager::cleanup_expired_locks`.  Each lock reads the clock for itself. -/
def cleanupExpiredLocks (m : DefaultLockManager) (i : IterationOrder) (clock : LockId → TimePoint) :
    DefaultLockManager :=
  let expired := (i.order m.locks.entries).filter fun entry => entry.2.isExpired (clock entry.1)
  m.releaseLocks (expired.map Sigma.fst)

/-! ## Deadlocks -/

/-- The loop of `detect_deadlocks` over the remaining transactions. -/
def detectFrom (m : DefaultLockManager) (i : IterationOrder) :
    List TransactionId → List TransactionId → List (List TransactionId)
  | [], _ => []
  | tx :: txs, visited =>
      if tx ∈ visited then m.detectFrom i txs visited
      else
        match m.findCycleInWaitGraph i tx with
        | [] => m.detectFrom i txs visited
        | node :: nodes => (node :: nodes) :: m.detectFrom i txs (node :: nodes ++ visited)

/-- `DefaultLockManager::detect_deadlocks`. -/
def detectDeadlocks (m : DefaultLockManager) (i : IterationOrder) : List (List TransactionId) :=
  m.detectFrom i (i.order m.waitGraph.keys) []

/-- `DefaultLockManager::resolve_deadlock`. -/
def resolveDeadlock (m : DefaultLockManager) (i : IterationOrder) (cycle : List TransactionId) :
    Result Unit × DefaultLockManager :=
  match cycle.max? with
  | none => (.error ⟨.invalidArgument, "Empty deadlock cycle"⟩, m)
  | some victim => m.releaseAllLocks i victim

end DefaultLockManager

/-! ## Calls of `acquire_lock` in progress -/

/-- Where a call of `acquire_lock` stands: about to enter the function, or asleep. -/
inductive LockPhase where
  | entering (timeout : Milliseconds)
  | waiting (existing : LockInfo) (deadline : TimePoint)
  deriving DecidableEq

/-- A call of `acquire_lock` that has not returned and does not hold the mutex. -/
structure LockCall where
  request : LockRequest
  phase : LockPhase
  deriving DecidableEq

/-- What the environment decides in a stretch of `acquire_lock`: two clock
readings, the iteration order, and what is read through the reference to a lock
that was released during the sleep. -/
structure Moment where
  now : TimePoint
  later : TimePoint
  order : IterationOrder
  dangling : TransactionId

/-- A moment in which all clocks stand at `now`. -/
def momentAt (now : TimePoint) : Moment := ⟨now, now, IterationOrder.listed, 0⟩

namespace LockCall

/-- The call is asleep. -/
def isWaiting (c : LockCall) : Bool :=
  match c.phase with
  | .entering _ => false
  | .waiting _ _ => true

/-- The next stretch of the call finds no lock in its way. -/
def Grantable (c : LockCall) (m : DefaultLockManager) : Prop :=
  c.isWaiting = false ∧ m.firstConflict c.request (m.keyLocks.bucket c.request.key) = none

instance (c : LockCall) (m : DefaultLockManager) : Decidable (c.Grantable m) :=
  inferInstanceAs (Decidable (_ ∧ _))

/-- `existing_lock.transaction_id` after a sleep. -/
def holder (m : DefaultLockManager) (existing : LockInfo) (dangling : TransactionId) :
    TransactionId :=
  match m.locks.lookup existing.lockId with
  | none => dangling
  | some l => l.transactionId

/-- The next stretch of a call: the result of the call, or the call as it goes on. -/
def advance (c : LockCall) (m : DefaultLockManager) (w : Moment) :
    (Result LockId ⊕ LockCall) × DefaultLockManager :=
  match c.phase with
  | .entering timeout =>
      match m.acquireLock w.order w.now c.request timeout with
      | (.granted id, m) => (.inl (.ok id), m)
      | (.refused failure, m) => (.inl (.error failure), m)
      | (.waiting existing deadline, m) => (.inr ⟨c.request, .waiting existing deadline⟩, m)
  | .waiting existing deadline =>
      if deadline < w.now then
        (.inl (.error (DefaultLockManager.acquisitionTimeout c.request.transactionId)),
          m.dropWait c.request.transactionId (holder m existing w.dangling))
      else
        -- whatever changed meanwhile, the call is made again with the time that is left
        (.inr ⟨c.request, .entering ((deadline - w.later).tdiv nanosPerMilli)⟩, m)

/-- A call with no lock in its way gets its lock. -/
theorem advance_of_grantable {c : LockCall} {m : DefaultLockManager} (h : c.Grantable m)
    (w : Moment) : ∃ timeout, c.advance m w =
      (.inl (.ok (generateLockId m.nextLockId)), m.grant c.request w.now timeout) := by
  obtain ⟨hentering, hfree⟩ := h
  rw [isWaiting] at hentering
  rw [advance]
  rcases hphase : c.phase with timeout | ⟨existing, deadline⟩
  · refine ⟨timeout, ?_⟩
    dsimp only
    rw [DefaultLockManager.acquireLock, hfree]
  · rw [hphase] at hentering
    cases hentering

/-- Any other stretch grants nothing. -/
theorem advance_of_not_grantable {c : LockCall} {m : DefaultLockManager} (h : ¬ c.Grantable m)
    (w : Moment) : (c.advance m w).2.locks = m.locks ∧ ∀ id, (c.advance m w).1 ≠ .inl (.ok id) := by
  rw [Grantable, isWaiting] at h
  rw [advance]
  rcases hphase : c.phase with timeout | ⟨existing, deadline⟩
  · rw [hphase] at h
    dsimp only
    rw [DefaultLockManager.acquireLock]
    rcases hfirst : m.firstConflict c.request (m.keyLocks.bucket c.request.key) with _ | existing
    · exact absurd ⟨rfl, hfirst⟩ h
    · dsimp only
      split_ifs with hcycle
      · exact ⟨rfl, fun id hid => by cases hid⟩
      · exact ⟨rfl, fun id hid => by cases hid⟩
  · dsimp only
    split_ifs with hlate
    · exact ⟨rfl, fun id hid => by cases hid⟩
    · exact ⟨rfl, fun id hid => by cases hid⟩

end LockCall

end QcDatabase
