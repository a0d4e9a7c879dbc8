/-
# Schedules of the transaction manager

The manager, the data operations in progress and the cycles that the
deadlock-detection thread has still to resolve.  `mutex_` is held by the calls
in progress: in shared mode by reads, exclusively by any other one.  An action
whose mutex is taken does not happen.

`history` lists the operations that a sequence of actions records, each with
the lock table at that moment.
-/
import QcDatabase.Transaction.TransactionManager

namespace QcDatabase

/-- A transaction manager in use. -/
structure TransactionSystem where
  manager : DefaultTransactionManager
  calls : List DataCall
  deadlocks : List (List TransactionId)

/-- What can happen next.  `call` enters a data operation, `acquire` makes a
stretch of its `acquire_lock`, and `record` takes it to its end;
`detectDeadlocks` and `resolveDeadlock` are the steps of a background pass. -/
inductive TransactionAction where
  | start
  | stop
  | setDefaultTimeout (timeout : Milliseconds)
  | beginTransaction (isolation : IsolationLevel) (now : TimePoint)
  | commitTransaction (order : IterationOrder) (clock : ℕ → TimePoint) (id : TransactionId)
  | abortTransaction (order : IterationOrder) (clock : ℕ → TimePoint) (id : TransactionId)
  | prepare (clock : ℕ → TimePoint) (id : TransactionId)
  | handleTpcMessage (message : TpcMessage)
  | cleanupExpiredTransactions (order : IterationOrder) (seen : TransactionId → TimePoint)
      (clock : TransactionId → ℕ → TimePoint)
  | call (now : TimePoint) (id : TransactionId) (key : MultiLevelKey) (operation : DataOperation)
  | acquire (n : ℕ) (moment : Moment)
  | record (n : ℕ) (clock : ℕ → TimePoint)
  | detectDeadlocks (order : IterationOrder)
  | resolveDeadlock (order : IterationOrder)

/-- An operation that was recorded, and `locks_` when it was. -/
structure RecordedOperation where
  transactionId : TransactionId
  type : OperationType
  key : MultiLevelKey
  locks : UnorderedMap LockId LockInfo

namespace TransactionSystem

/-- A manager nobody has used yet. -/
def create : TransactionSystem := ⟨DefaultTransactionManager.create, [], []⟩

/-- A function that holds `mutex_` exclusively runs when no data operation is in progress. -/
def exclusively (s : TransactionSystem)
    (f : DefaultTransactionManager → DefaultTransactionManager) : TransactionSystem :=
  if s.calls.isEmpty then { s with manager := f s.manager } else s

/-- `mutex_` can be taken for a data operation. -/
def mutexFree (s : TransactionSystem) (operation : DataOperation) : Bool :=
  if operation.sharesMutex then s.calls.all fun c => c.operation.sharesMutex else s.calls.isEmpty

/-- The system after a data operation was entered. -/
def enter (s : TransactionSystem) (now : TimePoint) (id : TransactionId) (key : MultiLevelKey)
    (operation : DataOperation) : TransactionSystem :=
  if s.mutexFree operation then
    match s.manager.startCall now id key operation with
    | .error _ => s
    | .ok c => { s with calls := s.calls ++ [c] }
  else s

/-- The system after the `n`-th call made a stretch of its `acquire_lock`. -/
def acquire (s : TransactionSystem) (n : ℕ) (moment : Moment) : TransactionSystem :=
  match s.calls[n]? with
  | some ⟨id, key, operation, .acquiring call⟩ =>
      match call.advance s.manager.lockManager moment with
      | (.inl (.ok lock), lockManager) =>
          { s with
            manager := { s.manager with lockManager := lockManager }
            calls := s.calls.set n ⟨id, key, operation, .recording (some lock)⟩ }
      | (.inl (.error _), lockManager) =>
          { s with
            manager := { s.manager with lockManager := lockManager }
            calls := s.calls.eraseIdx n }
      | (.inr call, lockManager) =>
          { s with
            manager := { s.manager with lockManager := lockManager }
            calls := s.calls.set n ⟨id, key, operation, .acquiring call⟩ }
  | _ => s

/-- The system after the `n`-th call recorded its operation. -/
def record (s : TransactionSystem) (n : ℕ) (clock : ℕ → TimePoint) : TransactionSystem :=
  match s.calls[n]? with
  | some ⟨id, key, operation, .recording lock⟩ =>
      { s with
        manager := (s.manager.recordOperation clock ⟨id, key, operation, .recording lock⟩ lock).2
        calls := s.calls.eraseIdx n }
  | _ => s

/-- The system after an action. -/
def step (s : TransactionSystem) : TransactionAction → TransactionSystem
  | .start => s.exclusively fun m => m.start.2
  | .stop => s.exclusively fun m => m.stop.2
  | .setDefaultTimeout timeout => s.exclusively fun m => m.setDefaultTimeout timeout
  | .beginTransaction isolation now => s.exclusively fun m => (m.beginTransaction isolation now).2
  | .commitTransaction order clock id =>
      s.exclusively fun m => (m.commitTransaction order clock id).2
  | .abortTransaction order clock id =>
      s.exclusively fun m => (m.abortTransaction order clock id).2
  | .prepare clock id => s.exclusively fun m => (m.prepare clock id).2
  | .handleTpcMessage message => s.exclusively fun m => (m.handleTpcMessage message).2
  | .cleanupExpiredTransactions order seen clock =>
      s.exclusively fun m => m.cleanupExpiredTransactions order seen clock
  | .call now id key operation => s.enter now id key operation
  | .acquire n moment => s.acquire n moment
  | .record n clock => s.record n clock
  | .detectDeadlocks order =>
      if s.deadlocks.isEmpty then
        { s with deadlocks := s.manager.lockManager.detectDeadlocks order }
      else s
  | .resolveDeadlock order =>
      match s.deadlocks with
      | [] => s
      | cycle :: deadlocks =>
          { s with
            manager := { s.manager with
              lockManager := (s.manager.lockManager.resolveDeadlock order cycle).2 }
            deadlocks := deadlocks }

/-- The system after a sequence of actions. -/
def run (s : TransactionSystem) (actions : List TransactionAction) : TransactionSystem :=
  actions.foldl step s

/-- The operation that an action records. -/
def recorded (s : TransactionSystem) : TransactionAction → Option RecordedOperation
  | .record n _ =>
      match s.calls[n]? with
      | some ⟨id, key, operation, .recording _⟩ =>
          some ⟨id, operation.type, key, s.manager.lockManager.locks⟩
      | _ => none
  | _ => none

/-- The operations that a sequence of actions records. -/
def history (s : TransactionSystem) : List TransactionAction → List RecordedOperation
  | [] => []
  | action :: actions => (s.recorded action).toList ++ (s.step action).history actions

theorem run_append (s : TransactionSystem) (before after : List TransactionAction) :
    s.run (before ++ after) = (s.run before).run after :=
  List.foldl_append

theorem run_concat (s : TransactionSystem) (actions : List TransactionAction)
    (action : TransactionAction) :
    s.run (actions ++ [action]) = (s.run actions).step action := by
  rw [run, run, List.foldl_append, List.foldl_cons, List.foldl_nil]

theorem history_concat (s : TransactionSystem) (actions : List TransactionAction)
    (action : TransactionAction) :
    s.history (actions ++ [action]) =
      s.history actions ++ ((s.run actions).recorded action).toList := by
  induction actions generalizing s with
  | nil => rw [List.nil_append, history, history, history, List.append_nil]; rfl
  | cons first actions ih =>
      rw [List.cons_append, history, history, ih, List.append_assoc]
      rfl

end TransactionSystem

/-! ## What a step does -/

/-- The function of the manager that an action runs while it holds `mutex_`
exclusively; the steps of a data operation or a background pass run none. -/
def TransactionAction.managerFunction :
    TransactionAction → Option (DefaultTransactionManager → DefaultTransactionManager)
  | .start => some fun m => m.start.2
  | .stop => some fun m => m.stop.2
  | .setDefaultTimeout timeout => some fun m => m.setDefaultTimeout timeout
  | .beginTransaction isolation now => some fun m => (m.beginTransaction isolation now).2
  | .commitTransaction order clock id => some fun m => (m.commitTransaction order clock id).2
  | .abortTransaction order clock id => some fun m => (m.abortTransaction order clock id).2
  | .prepare clock id => some fun m => (m.prepare clock id).2
  | .handleTpcMessage message => some fun m => (m.handleTpcMessage message).2
  | .cleanupExpiredTransactions order seen clock =>
      some fun m => m.cleanupExpiredTransactions order seen clock
  | .call _ _ _ _ | .acquire _ _ | .record _ _ | .detectDeadlocks _ | .resolveDeadlock _ => none

namespace TransactionSystem

variable {s : TransactionSystem}

theorem step_of_managerFunction {action : TransactionAction}
    {f : DefaultTransactionManager → DefaultTransactionManager}
    (hf : action.managerFunction = some f) : s.step action = s.exclusively f := by
  cases action <;> cases hf <;> rfl

theorem recorded_of_managerFunction {action : TransactionAction}
    {f : DefaultTransactionManager → DefaultTransactionManager}
    (hf : action.managerFunction = some f) : s.recorded action = none := by
  cases action <;> cases hf <;> rfl

/-- The function runs if there are no calls in progress. -/
theorem exclusively_cases (s : TransactionSystem)
    (f : DefaultTransactionManager → DefaultTransactionManager) :
    (s.calls = [] ∧ s.exclusively f = { s with manager := f s.manager }) ∨
      (s.calls ≠ [] ∧ s.exclusively f = s) := by
  rw [exclusively]
  split_ifs with hcalls
  · exact Or.inl ⟨List.isEmpty_iff.mp hcalls, rfl⟩
  · exact Or.inr ⟨fun hnil => hcalls (List.isEmpty_iff.mpr hnil), rfl⟩

/-- A data operation is entered, or it never begins. -/
theorem enter_cases (s : TransactionSystem) (now : TimePoint) (id : TransactionId)
    (key : MultiLevelKey) (operation : DataOperation) :
    s.enter now id key operation = s ∨
      ∃ c, s.mutexFree operation = true ∧ s.manager.startCall now id key operation = .ok c ∧
        s.enter now id key operation = { s with calls := s.calls ++ [c] } := by
  rw [enter]
  split_ifs with hfree
  · rcases s.manager.startCall now id key operation with failure | c
    · exact Or.inl rfl
    · exact Or.inr ⟨c, hfree, rfl, rfl⟩
  · exact Or.inl rfl

/-- A stretch of `acquire_lock` leaves the lock manager that it comes to; its
call gets the lock, is over, or goes on. -/
theorem acquire_cases (s : TransactionSystem) (n : ℕ) (moment : Moment) :
    ((∀ c ∈ s.calls[n]?, c.lockCall = none) ∧ s.acquire n moment = s) ∨
      ∃ id key operation call calls,
        s.calls[n]? = some ⟨id, key, operation, .acquiring call⟩ ∧
        s.acquire n moment = ⟨{ s.manager with
          lockManager := (call.advance s.manager.lockManager moment).2 }, calls, s.deadlocks⟩ ∧
        ∀ c ∈ calls, c ∈ s.calls ∨
          (∃ lock, (call.advance s.manager.lockManager moment).1 = .inl (.ok lock) ∧
            c = ⟨id, key, operation, .recording (some lock)⟩) ∨
          ∃ next, (call.advance s.manager.lockManager moment).1 = .inr next ∧
            c = ⟨id, key, operation, .acquiring next⟩ := by
  rw [acquire]
  rcases hn : s.calls[n]? with _ | ⟨id, key, operation, call | lock⟩
  · refine Or.inl ⟨?_, rfl⟩
    intro c hc
    cases hc
  · refine Or.inr ⟨id, key, operation, call, ?_⟩
    dsimp only
    -- refused, granted or still waiting
    rcases call.advance s.manager.lockManager moment with ⟨(failure | lock) | next, lockManager⟩
    · refine ⟨_, rfl, rfl, ?_⟩
      exact fun c hc => Or.inl (List.mem_of_mem_eraseIdx hc)
    · refine ⟨_, rfl, rfl, ?_⟩
      intro c hc
      rcases List.mem_or_eq_of_mem_set hc with hold | rfl
      · exact Or.inl hold
      · exact Or.inr (Or.inl ⟨lock, rfl, rfl⟩)
    · refine ⟨_, rfl, rfl, ?_⟩
      intro c hc
      rcases List.mem_or_eq_of_mem_set hc with hold | rfl
      · exact Or.inl hold
      · exact Or.inr (Or.inr ⟨next, rfl, rfl⟩)
  · refine Or.inl ⟨?_, rfl⟩
    rintro _ ⟨⟩
    rfl

/-- The end of a data operation records it and takes its call away. -/
theorem record_cases (s : TransactionSystem) (n : ℕ) (clock : ℕ → TimePoint) :
    (s.recorded (.record n clock) = none ∧ s.record n clock = s) ∨
      ∃ id key operation lock,
        s.calls[n]? = some ⟨id, key, operation, .recording lock⟩ ∧
        s.recorded (.record n clock)
          = some ⟨id, operation.type, key, s.manager.lockManager.locks⟩ ∧
        s.record n clock = ⟨(s.manager.recordOperation clock
          ⟨id, key, operation, .recording lock⟩ lock).2, s.calls.eraseIdx n, s.deadlocks⟩ := by
  rw [record, recorded]
  rcases s.calls[n]? with _ | ⟨id, key, operation, call | lock⟩
  · exact Or.inl ⟨rfl, rfl⟩
  · exact Or.inl ⟨rfl, rfl⟩
  · exact Or.inr ⟨id, key, operation, lock, rfl, rfl, rfl⟩

end TransactionSystem

/-! ## Conflicts -/

/-- `WRITE` and `DELETE`. -/
def OperationType.IsUpdate (type : OperationType) : Prop := type = .write ∨ type = .delete

instance (type : OperationType) : Decidable type.IsUpdate :=
  inferInstanceAs (Decidable (_ ∨ _))

/-- Operations on one key of which one is a `WRITE` or `DELETE`. -/
def RecordedOperation.Conflict (a b : RecordedOperation) : Prop :=
  a.key = b.key ∧ (a.type.IsUpdate ∨ b.type.IsUpdate)

/-- It was recorded under a lock of its transaction, an exclusive one for an update. -/
def RecordedOperation.Covered (a : RecordedOperation) : Prop :=
  ∃ id l, a.locks.lookup id = some l ∧ l.transactionId = a.transactionId ∧ l.key = a.key ∧
    (a.type.IsUpdate → l.type = .exclusive)

/-- The transaction holds no lock in the table. -/
def RecordedOperation.HoldsNoLock (b : RecordedOperation) (tx : TransactionId) : Prop :=
  ∀ id l, b.locks.lookup id = some l → l.transactionId ≠ tx

/-- Every transaction starts at `READ_COMMITTED` or above. -/
def TransactionAction.ReadsCommitted : TransactionAction → Prop
  | .beginTransaction isolation _ => IsolationLevel.readCommitted ≤ isolation
  | _ => True

end QcDatabase
