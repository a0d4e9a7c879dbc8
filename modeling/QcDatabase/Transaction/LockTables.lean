/-
# The lock tables agree

`locks_`, `key_locks_` and `transaction_locks_` are updated by hand in every
operation.  `LockTablesAgree` says what they owe each other: both indexes list
exactly the locks there are, a key lists a lock once, no empty collection is
kept, and every id comes from the counter.  `lockTables_agree` is the result, for
every order of the stretches of `acquire_lock`, the releases and the cleanup of
expired locks.
-/
import QcDatabase.Lib.StepRuns
import QcDatabase.Transaction.MutualExclusion

open UnorderedMap

namespace QcDatabase

namespace DefaultLockManager

/-- What the three tables of a lock manager owe each other. -/
structure LockTablesAgree (m : DefaultLockManager) : Prop where
  mem_keyLocks : ∀ key id,
    id ∈ m.keyLocks.bucket key ↔ ∃ l, m.locks.lookup id = some l ∧ l.key = key
  mem_transactionLocks : ∀ tx id,
    id ∈ m.transactionLocks.bucket tx ↔ ∃ l, m.locks.lookup id = some l ∧ l.transactionId = tx
  nodup : ∀ key, (m.keyLocks.bucket key).Nodup
  keyLocks_noEmpty : m.keyLocks.NoEmpty
  transactionLocks_noEmpty : m.transactionLocks.NoEmpty
  generated : ∀ id l, m.locks.lookup id = some l → ∃ n < m.nextLockId, id = generateLockId n

/-- The part of `LockTablesAgree` that is not in the invariant of the lock tables already. -/
structure Tidy (m : DefaultLockManager) : Prop where
  nodup : ∀ key, (m.keyLocks.bucket key).Nodup
  keyLocks_noEmpty : m.keyLocks.NoEmpty
  transactionLocks_noEmpty : m.transactionLocks.NoEmpty

theorem WellFormed.agree {m : DefaultLockManager} (h : m.WellFormed) (ht : m.Tidy) :
    m.LockTablesAgree :=
  ⟨h.keyLocks, h.transactionLocks, ht.nodup, ht.keyLocks_noEmpty, ht.transactionLocks_noEmpty,
    h.fresh⟩

theorem tidy_create : create.Tidy := by
  refine ⟨?_, noEmpty_empty, noEmpty_empty⟩
  intro key
  rw [show create.keyLocks = ∅ from rfl, bucket_empty]
  exact List.nodup_nil

/-! ## The operations -/

section

variable {m : DefaultLockManager}

/-- The wait graph is not one of the tables. -/
theorem Tidy.of_waitGraph (h : m.Tidy) (g : UnorderedMap TransactionId (List TransactionId)) :
    { m with waitGraph := g }.Tidy :=
  ⟨h.nodup, h.keyLocks_noEmpty, h.transactionLocks_noEmpty⟩

theorem Tidy.grant (h : m.Tidy) (hm : m.WellFormed) (r : LockRequest) (now : TimePoint)
    (timeout : Milliseconds) : (m.grant r now timeout).Tidy := by
  refine ⟨?_, ?_, ?_⟩
  · intro key
    show (bucket (m.keyLocks.insert r.key _) key).Nodup
    rw [bucket_insert]
    by_cases hkey : key = r.key
    · -- the new id belongs to no lock, so the key does not list it yet
      have hnew : generateLockId m.nextLockId ∉ m.keyLocks.bucket r.key := by
        intro hmem
        obtain ⟨l, hl, -⟩ := (hm.keyLocks r.key _).mp hmem
        rw [hm.lookup_next] at hl
        cases hl
      rw [if_pos hkey, ← List.concat_eq_append]
      exact (h.nodup r.key).concat hnew
    · rw [if_neg hkey]
      exact h.nodup key
  · apply h.keyLocks_noEmpty.insert
    exact List.append_ne_nil_of_right_ne_nil _ (List.cons_ne_nil _ _)
  · apply h.transactionLocks_noEmpty.insert
    exact List.ne_nil_of_mem List.mem_insert_self

theorem Tidy.releaseLock (h : m.Tidy) (id : LockId) : (m.releaseLock id).2.Tidy := by
  rw [DefaultLockManager.releaseLock]
  rcases m.locks.lookup id with _ | l
  · exact h
  · refine ⟨?_, h.keyLocks_noEmpty.removeFrom _ _, h.transactionLocks_noEmpty.removeFrom _ _⟩
    intro key
    show (bucket (m.keyLocks.removeFrom l.key id) key).Nodup
    rw [bucket_removeFrom]
    by_cases hkey : key = l.key
    · rw [if_pos hkey]
      exact (h.nodup l.key).filter _
    · rw [if_neg hkey]
      exact h.nodup key

theorem Tidy.releaseLocks (h : m.Tidy) (ids : List LockId) : (m.releaseLocks ids).Tidy := by
  induction ids generalizing m with
  | nil => exact h
  | cons id ids ih => exact ih (h.releaseLock id)

theorem Tidy.releaseAllLocks (h : m.Tidy) (i : IterationOrder) (tx : TransactionId) :
    (m.releaseAllLocks i tx).2.Tidy := by
  rw [DefaultLockManager.releaseAllLocks]
  rcases m.transactionLocks.lookup tx with _ | ids
  · exact h
  · exact (h.releaseLocks (i.order ids)).of_waitGraph _

/-- A stretch of a call keeps the tables tidy. -/
theorem Tidy.stretch {c : LockCall} {m' : DefaultLockManager} {i : IterationOrder}
    {result : Result LockId ⊕ LockCall} (h : m.Tidy) (hm : m.WellFormed)
    (hstep : c.Stretch m i result m') : m'.Tidy := by
  cases hstep with
  | granted now timeout hfree => exact h.grant hm c.request now timeout
  | refused failure holder => exact (h.of_waitGraph _).of_waitGraph _
  | waiting existing deadline hnone => exact h.of_waitGraph _
  | timedOut failure holder => exact h.of_waitGraph _
  | retrying timeout => exact h

end

end DefaultLockManager

/-! ## Every order of operations -/

/-- An action of the lock system, or a cleanup of the expired locks. -/
inductive TableAction where
  | call (action : LockAction)
  | cleanupExpiredLocks (order : IterationOrder) (clock : LockId → TimePoint)

namespace LockSystem

/-- The system after an action on the lock tables. -/
def tableStep (s : LockSystem) : TableAction → LockSystem
  | .call action => s.step action
  | .cleanupExpiredLocks order clock => ⟨s.manager.cleanupExpiredLocks order clock, s.calls⟩

/-- The system after a sequence of actions on the lock tables. -/
def tableRun (s : LockSystem) (actions : List TableAction) : LockSystem :=
  actions.foldl tableStep s

theorem step_tidy {s : LockSystem} (hm : s.manager.WellFormed) (h : s.manager.Tidy)
    (action : LockAction) : (s.step action).manager.Tidy := by
  cases action with
  | acquireLock request timeout => exact h
  | advance n moment =>
      rcases s.step_advance_cases n moment with heq | ⟨c, result, hstretch⟩
      · rw [heq]
        exact h
      · exact h.stretch hm hstretch
  | releaseLock id => exact h.releaseLock id
  | releaseAllLocks order tx => exact h.releaseAllLocks order tx

/-- Both parts of the invariant survive an action. -/
theorem tableStep_agree {s : LockSystem} (h : s.manager.WellFormed ∧ s.manager.Tidy)
    (action : TableAction) :
    (s.tableStep action).manager.WellFormed ∧ (s.tableStep action).manager.Tidy := by
  cases action with
  | call action => exact ⟨step_wellFormed h.1 action, step_tidy h.1 h.2 action⟩
  | cleanupExpiredLocks order clock => exact ⟨h.1.releaseLocks _, h.2.releaseLocks _⟩

/-- **The lock tables agree** in every state that any order of stretches of
`acquire_lock`, releases and cleanups reaches. -/
theorem lockTables_agree (actions : List TableAction) :
    (create.tableRun actions).manager.LockTablesAgree := by
  have hrun : (create.tableRun actions).manager.WellFormed ∧
      (create.tableRun actions).manager.Tidy :=
    StepRun.invariant (fun s : LockSystem => s.manager.WellFormed ∧ s.manager.Tidy)
      (fun s action h => tableStep_agree h action)
      ⟨DefaultLockManager.wellFormed_create, DefaultLockManager.tidy_create⟩ actions
  exact hrun.1.agree hrun.2

end LockSystem

end QcDatabase
