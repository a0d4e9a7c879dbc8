/-
# Schedules are conflict serializable

Every operation is recorded under a lock that stays until the end of its
transaction: the only releases are those of `commit_transaction` and
`abort_transaction`, which erase the transaction with it, and the
deadlock-detection thread never has anything to release, since the wait graph
is acyclic.  A transaction that is dropped without a release keeps its locks
for ever.

`ScheduleInv` is the invariant of the whole system; `schedules_serializable` is
the result.
-/
import QcDatabase.Transaction.TwoPhase

namespace QcDatabase

namespace LockCall.Stretch

variable {c : LockCall} {m m' : DefaultLockManager} {i : IterationOrder} {id : LockId}

/-- A call that returns a lock leaves its transaction with it. -/
theorem holds (hstep : c.Stretch m i (.inl (.ok id)) m') {tx : TransactionId}
    {key : MultiLevelKey} {type : LockType} {operation : OperationType}
    (hrequest : c.request = ⟨tx, key, type⟩) (htype : operation.IsUpdate → type = .exclusive) :
    m'.Holds tx key operation := by
  cases hstep with
  | granted now timeout hfree =>
      rw [hrequest]
      exact ⟨_, _, DefaultLockManager.lookup_grant_next, rfl, rfl, htype⟩

end LockCall.Stretch

/-! ## The invariant of a schedule -/

/-- The invariant of the system and the operations recorded so far. -/
structure ScheduleInv (s : TransactionSystem) (log : List RecordedOperation) : Prop where
  manager : s.manager.TwoPhase log
  calls : ∀ c ∈ s.calls, s.manager.CallInv c
  deadlocks : s.deadlocks = []

namespace ScheduleInv

variable {s : TransactionSystem} {log : List RecordedOperation}

theorem create : ScheduleInv TransactionSystem.create [] :=
  ⟨DefaultTransactionManager.twoPhase_create, fun _ hc => absurd hc List.not_mem_nil, rfl⟩

/-- A function that holds `mutex_` exclusively runs without calls in progress. -/
theorem exclusively (h : ScheduleInv s log)
    {f : DefaultTransactionManager → DefaultTransactionManager}
    (hf : (f s.manager).TwoPhase log) : ScheduleInv (s.exclusively f) log := by
  rcases s.exclusively_cases f with ⟨hnil, hafter⟩ | ⟨-, hsame⟩
  · rw [hafter]
    refine ⟨hf, ?_, h.deadlocks⟩
    intro c hc
    rw [show s.calls = [] from hnil] at hc
    exact absurd hc List.not_mem_nil
  · rw [hsame]
    exact h

theorem enter (h : ScheduleInv s log) (now : TimePoint) (id : TransactionId) (key : MultiLevelKey)
    (operation : DataOperation) : ScheduleInv (s.enter now id key operation) log := by
  rcases s.enter_cases now id key operation with hsame | ⟨c, -, hstart, hafter⟩
  · rw [hsame]
    exact h
  · rw [hafter]
    refine ⟨h.manager, ?_, h.deadlocks⟩
    intro c' hc'
    rcases List.mem_append.mp hc' with hold | hnew
    · exact h.calls c' hold
    · rw [List.mem_singleton.mp hnew]
      exact DefaultTransactionManager.callInv_startCall h.manager hstart

theorem acquire (h : ScheduleInv s log) (n : ℕ) (moment : Moment) :
    ScheduleInv (s.acquire n moment) log := by
  rcases s.acquire_cases n moment with
    ⟨-, hsame⟩ | ⟨id, key, operation, call, calls, hn, hafter, hcalls⟩
  · rw [hsame]
    exact h
  · obtain ⟨hlive, type, hrequest, htype⟩ := h.calls _ (List.mem_of_getElem? hn)
    have hstep := call.advance_stretch s.manager.lockManager moment
    have hcaller : call.request.transactionId ∈ s.manager.transactions := by
      rw [hrequest]
      exact hlive
    rw [hafter]
    refine ⟨h.manager.stretch hcaller hstep, ?_, h.deadlocks⟩
    intro c hc
    rcases hcalls c hc with hold | ⟨lock, hlock, rfl⟩ | ⟨next, hnext, rfl⟩
    · exact (h.calls c hold).stretch h.manager.locks hstep
    · rw [hlock] at hstep
      exact ⟨hlive, hstep.holds hrequest htype⟩
    · rw [hnext] at hstep
      exact ⟨hlive, type, hstep.request_eq.trans hrequest, htype⟩

/-- Recording an operation extends the log by it. -/
theorem record (h : ScheduleInv s log) (n : ℕ) (clock : ℕ → TimePoint) :
    ScheduleInv (s.record n clock) (log ++ (s.recorded (.record n clock)).toList) := by
  rcases s.record_cases n clock with
    ⟨hnone, hsame⟩ | ⟨id, key, operation, lock, hn, hrecorded, hafter⟩
  · rw [hnone, hsame, Option.toList_none, List.append_nil]
    exact h
  · obtain ⟨hlive, hholds⟩ := h.calls _ (List.mem_of_getElem? hn)
    rw [hrecorded, hafter, Option.toList_some]
    refine ⟨?_, ?_, h.deadlocks⟩
    · exact (h.manager.concat hlive hholds rfl).settles
        (DefaultTransactionManager.settles_recordOperation clock _ lock)
    · intro c hc
      exact (h.calls c (List.mem_of_mem_eraseIdx hc)).recordOperation clock _ lock

/-- **Every step keeps the invariant.** -/
theorem step (h : ScheduleInv s log) {action : TransactionAction} (haction : action.ReadsCommitted) :
    ScheduleInv (s.step action) (log ++ (s.recorded action).toList) := by
  have hlog : ∀ s', ScheduleInv s' log → ScheduleInv s' (log ++ (none : Option _).toList) := by
    intro s' hs'
    rw [Option.toList_none, List.append_nil]
    exact hs'
  rcases hfunction : action.managerFunction with _ | f
  · cases action with
    | call now id key operation => exact hlog _ (h.enter now id key operation)
    | acquire n moment => exact hlog _ (h.acquire n moment)
    | record n clock => exact h.record n clock
    | detectDeadlocks order =>
        -- the wait graph is acyclic, so the pass finds nothing
        apply hlog
        rw [TransactionSystem.step, if_pos (List.isEmpty_iff.mpr h.deadlocks)]
        exact ⟨h.manager, h.calls, DefaultLockManager.detectDeadlocks_eq_nil h.manager.waits⟩
    | resolveDeadlock order =>
        apply hlog
        rw [TransactionSystem.step, h.deadlocks]
        exact h
    | _ => cases hfunction
  · have hmanager : (f s.manager).TwoPhase log := by
      apply DefaultTransactionManager.invariant_of_managerFunction
        (fun m => m.TwoPhase log) _ _ hfunction h.manager
      · exact fun _ _ hm hsettles => hm.settles hsettles
      · rintro isolation now rfl
        exact h.manager.beginTransaction haction now
    rw [TransactionSystem.step_of_managerFunction hfunction,
      TransactionSystem.recorded_of_managerFunction hfunction]
    exact hlog _ (h.exclusively hmanager)

theorem run (actions : List TransactionAction) (hactions : ∀ a ∈ actions, a.ReadsCommitted) :
    ScheduleInv (TransactionSystem.create.run actions)
      (TransactionSystem.create.history actions) := by
  induction actions using List.reverseRecOn with
  | nil => exact ScheduleInv.create
  | append_singleton actions action ih =>
      rw [TransactionSystem.run_concat, TransactionSystem.history_concat]
      have hearlier := ih fun a ha => hactions a (List.mem_append_left _ ha)
      exact hearlier.step (hactions action (List.mem_append_right _ List.mem_cons_self))

end ScheduleInv

/-! ## The result -/

/-- **Schedules are conflict serializable**: every operation is recorded under
a lock of its transaction; when an operation of one transaction conflicts with
an earlier one of another transaction, that transaction holds no lock any more;
and the precedence graph of the recorded operations is acyclic. -/
theorem schedules_serializable (actions : List TransactionAction)
    (hactions : ∀ a ∈ actions, a.ReadsCommitted) :
    (∀ a ∈ TransactionSystem.create.history actions, a.Covered) ∧
    (∀ a b, [a, b].Sublist (TransactionSystem.create.history actions) →
      a.transactionId ≠ b.transactionId → a.Conflict b → b.HoldsNoLock a.transactionId) ∧
    Acyclic (DefaultTransactionManager.PrecedenceGraph
      (TransactionSystem.create.history actions)) :=
  ⟨(ScheduleInv.run actions hactions).manager.covered,
    (ScheduleInv.run actions hactions).manager.released,
    (ScheduleInv.run actions hactions).manager.acyclic⟩

/-- The key of the sample schedule. -/
def sampleRow : MultiLevelKey := ⟨[114], [49]⟩

/-- Transaction 1 writes; the read of transaction 2 waits until its deadline has
passed and succeeds when it is made again after the commit. -/
def sampleSchedule : List TransactionAction :=
  [.start, .beginTransaction .readCommitted 0, .beginTransaction .serializable 0,
    .call 0 1 sampleRow (.write (DataEntry.default 0)), .acquire 0 (momentAt 0),
    .record 0 fun _ => 0,
    .call 0 2 sampleRow .read, .acquire 0 (momentAt 0),
    .detectDeadlocks IterationOrder.listed, .acquire 0 (momentAt 6000000000),
    .commitTransaction IterationOrder.listed (fun _ => 0) 1,
    .call 0 2 sampleRow .read, .acquire 0 (momentAt 0), .record 0 fun _ => 0]

theorem sampleSchedule_readsCommitted : ∀ a ∈ sampleSchedule, a.ReadsCommitted := by
  simp only [sampleSchedule, List.forall_mem_cons, TransactionAction.ReadsCommitted, true_and]
  refine ⟨by decide, by decide, fun a ha => absurd ha List.not_mem_nil⟩

theorem schedules_serializable_sample :
    (TransactionSystem.create.history sampleSchedule).map
        (fun a => (a.transactionId, a.type, a.locks.keys)) =
      [(1, .write, ["lock_1"]), (2, .read, ["lock_2"])] ∧
    Acyclic (DefaultTransactionManager.PrecedenceGraph
      (TransactionSystem.create.history sampleSchedule)) :=
  ⟨by decide +kernel, (schedules_serializable sampleSchedule sampleSchedule_readsCommitted).2.2⟩

end QcDatabase
