/-
# What is known of every state of the transaction manager

The lock tables are well formed, the ids of transactions come from the counter,
and a call in progress belongs to a transaction that is there and asks for its
lock in the name of that transaction.  This holds in every run, at any isolation
level (`SystemInv.run`).
-/
import QcDatabase.Lib.StepRuns
import QcDatabase.Transaction.TwoPhase

open StepRun UnorderedMap

namespace QcDatabase

namespace DefaultTransactionManager

variable {m m' : DefaultTransactionManager}

/-- The lock tables are well formed and the ids come from the counter. -/
structure Sound (m : DefaultTransactionManager) : Prop where
  locks : m.lockManager.WellFormed
  known : ∀ t ∈ m.transactions, t < m.nextTransactionId

theorem sound_create : create.Sound :=
  ⟨DefaultLockManager.wellFormed_create, fun t ht => absurd ht (AList.notMem_empty t)⟩

theorem Sound.settles (h : m.Sound) (hsettles : Settles m m') : m'.Sound := by
  constructor
  · rcases hsettles.locks with hsame | ⟨i, ended, hreleased, -⟩
    · rw [hsame]
      exact h.locks
    · rw [hreleased]
      exact h.locks.releaseAllLocks i ended
  · intro t ht
    rw [hsettles.next]
    exact h.known t (hsettles.mem_transactions ht)

theorem Sound.beginTransaction (h : m.Sound) (isolation : IsolationLevel) (now : TimePoint) :
    (m.beginTransaction isolation now).2.Sound := by
  rw [DefaultTransactionManager.beginTransaction]
  split_ifs with hrunning
  · exact h
  · refine ⟨h.locks, ?_⟩
    intro t ht
    rcases (AList.mem_insert _).mp ht with rfl | ht
    · exact Nat.lt_succ_self _
    · exact Nat.lt_succ_of_lt (h.known t ht)

theorem Sound.managerFunction (h : m.Sound) {action : TransactionAction}
    {f : DefaultTransactionManager → DefaultTransactionManager}
    (hf : action.managerFunction = some f) : (f m).Sound :=
  invariant_of_managerFunction Sound (fun _ _ hm hsettles => hm.settles hsettles)
    (fun isolation now _ => h.beginTransaction isolation now) hf h

/-- Recording an operation leaves the same transactions. -/
theorem mem_recordOperation {t : TransactionId} {clock : ℕ → TimePoint} {c : DataCall}
    {lock : Option LockId} :
    t ∈ (m.recordOperation clock c lock).2.transactions ↔ t ∈ m.transactions := by
  rw [recordOperation]
  rcases hlookup : m.transactions.lookup c.transactionId with _ | tx
  · rfl
  · refine (AList.mem_insert _).trans (or_iff_right_of_imp ?_)
    rintro rfl
    exact mem_of_lookup hlookup

end DefaultTransactionManager

/-- The invariant of the system. -/
structure SystemInv (s : TransactionSystem) : Prop where
  manager : s.manager.Sound
  live : ∀ c ∈ s.calls, c.transactionId ∈ s.manager.transactions
  requests : ∀ c ∈ s.calls, ∀ call, c.phase = .acquiring call →
    call.request.transactionId = c.transactionId

namespace SystemInv

variable {s : TransactionSystem}

theorem create : SystemInv TransactionSystem.create where
  manager := DefaultTransactionManager.sound_create
  live _ hc := absurd hc List.not_mem_nil
  requests _ hc := absurd hc List.not_mem_nil

/-- A function that holds `mutex_` exclusively runs when there are no calls. -/
theorem exclusively (h : SystemInv s) {f : DefaultTransactionManager → DefaultTransactionManager}
    (hf : (f s.manager).Sound) : SystemInv (s.exclusively f) := by
  rcases s.exclusively_cases f with ⟨hnil, hafter⟩ | ⟨-, hsame⟩
  · have hnone : ∀ c, c ∉ s.calls := by
      intro c
      rw [hnil]
      exact List.not_mem_nil
    rw [hafter]
    exact ⟨hf, fun c hc => absurd hc (hnone c), fun c hc => absurd hc (hnone c)⟩
  · rw [hsame]
    exact h

theorem enter (h : SystemInv s) (now : TimePoint) (id : TransactionId) (key : MultiLevelKey)
    (operation : DataOperation) : SystemInv (s.enter now id key operation) := by
  rcases s.enter_cases now id key operation with hsame | ⟨c, -, hstart, hafter⟩
  · rw [hsame]
    exact h
  · obtain ⟨tx, htx, -, hc⟩ := DefaultTransactionManager.startCall_ok hstart
    have hid : c.transactionId = id := by
      rcases hc with ⟨-, rfl⟩ | ⟨type, -, rfl⟩ <;> rfl
    have hrequest : ∀ call, c.phase = .acquiring call → call.request.transactionId = id := by
      intro call hcall
      rcases hc with ⟨-, rfl⟩ | ⟨type, -, rfl⟩
      · cases hcall
      · cases hcall
        rfl
    rw [hafter]
    refine ⟨h.manager, ?_, ?_⟩
    · intro c' hc'
      rcases List.mem_append.mp hc' with hold | hnew
      · exact h.live c' hold
      · rw [List.mem_singleton.mp hnew, hid]
        exact mem_of_lookup htx
    · intro c' hc' call hcall
      rcases List.mem_append.mp hc' with hold | hnew
      · exact h.requests c' hold call hcall
      · obtain rfl := List.mem_singleton.mp hnew
        rw [hrequest call hcall, hid]

theorem acquire (h : SystemInv s) (n : ℕ) (moment : Moment) : SystemInv (s.acquire n moment) := by
  rcases s.acquire_cases n moment with
    ⟨-, hsame⟩ | ⟨id, key, operation, call, calls, hn, hafter, hcalls⟩
  · rw [hsame]
    exact h
  · have hmem := List.mem_of_getElem? hn
    have hlive : id ∈ s.manager.transactions := h.live _ hmem
    have hrequest : call.request.transactionId = id := h.requests _ hmem call rfl
    have hstep := call.advance_stretch s.manager.lockManager moment
    rw [hafter]
    refine ⟨⟨h.manager.locks.stretch hstep, h.manager.known⟩, ?_, ?_⟩
    · intro c hc
      rcases hcalls c hc with hold | ⟨lock, -, rfl⟩ | ⟨next, -, rfl⟩
      · exact h.live c hold
      · exact hlive
      · exact hlive
    · intro c hc other hother
      rcases hcalls c hc with hold | ⟨lock, -, rfl⟩ | ⟨next, hnext, rfl⟩
      · exact h.requests c hold other hother
      · cases hother
      · -- the call goes on with the request it was entered with
        cases hother
        rw [hnext] at hstep
        rw [hstep.request_eq]
        exact hrequest

theorem record (h : SystemInv s) (n : ℕ) (clock : ℕ → TimePoint) :
    SystemInv (s.record n clock) := by
  rcases s.record_cases n clock with
    ⟨-, hsame⟩ | ⟨id, key, operation, lock, -, -, hafter⟩
  · rw [hsame]
    exact h
  · have hsettles := DefaultTransactionManager.settles_recordOperation (m := s.manager) clock
      ⟨id, key, operation, .recording lock⟩ lock
    rw [hafter]
    refine ⟨h.manager.settles hsettles, ?_, ?_⟩
    · intro c hc
      exact DefaultTransactionManager.mem_recordOperation.mpr
        (h.live c (List.mem_of_mem_eraseIdx hc))
    · intro c hc
      exact h.requests c (List.mem_of_mem_eraseIdx hc)

/-- **Every step keeps the invariant.** -/
theorem step (h : SystemInv s) (action : TransactionAction) : SystemInv (s.step action) := by
  rcases hfunction : action.managerFunction with _ | f
  · cases action with
    | call now id key operation => exact h.enter now id key operation
    | acquire n moment => exact h.acquire n moment
    | record n clock => exact h.record n clock
    | detectDeadlocks order =>
        rw [TransactionSystem.step]
        split_ifs with hnone
        · exact ⟨h.manager, h.live, h.requests⟩
        · exact h
    | resolveDeadlock order =>
        rw [TransactionSystem.step]
        rcases s.deadlocks with _ | ⟨cycle, deadlocks⟩
        · exact h
        · refine ⟨⟨?_, h.manager.known⟩, h.live, h.requests⟩
          dsimp only
          rw [DefaultLockManager.resolveDeadlock]
          rcases cycle.max? with _ | victim
          · exact h.manager.locks
          · exact h.manager.locks.releaseAllLocks order victim
    | _ => cases hfunction
  · rw [TransactionSystem.step_of_managerFunction hfunction]
    exact h.exclusively (h.manager.managerFunction hfunction)

/-- It holds in every run. -/
theorem run (actions : List TransactionAction) : SystemInv (TransactionSystem.create.run actions) :=
  StepRun.invariant SystemInv (fun _ action h => h.step action) SystemInv.create actions

end SystemInv

end QcDatabase
