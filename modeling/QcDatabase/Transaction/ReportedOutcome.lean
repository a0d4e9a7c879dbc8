/-
# The outcome that is reported

`commit_transaction` and `abort_transaction` erase the record of the transaction,
and `get_transaction_state` counts a transaction without a record as aborted.  Ids
are not used again, so that answer stays for ever (`Erased.run`).  It is the right
one after an abort and the wrong one after a commit: what is reported is what
happened in the runs without a successful commit only
(`outcomesReported_iff_neverCommits`).
-/
import QcDatabase.Transaction.SystemInvariant
import QcDatabase.Transaction.TwoPhaseCommit

open StepRun UnorderedMap

namespace QcDatabase

namespace DefaultTransactionManager

/-- The transaction has been begun and has no record any more. -/
structure Erased (m : DefaultTransactionManager) (id : TransactionId) : Prop where
  known : id < m.nextTransactionId
  gone : id ∉ m.transactions

variable {m m' : DefaultTransactionManager} {id : TransactionId}

theorem Erased.getTransactionState (h : m.Erased id) : m.getTransactionState id = .aborted := by
  rw [DefaultTransactionManager.getTransactionState]
  rcases hlookup : m.transactions.lookup id with _ | tx
  · rfl
  · exact absurd (mem_of_lookup hlookup) h.gone

theorem Erased.settles (h : m.Erased id) (hsettles : Settles m m') : m'.Erased id :=
  ⟨hsettles.next ▸ h.known, fun hmem => h.gone (hsettles.mem_transactions hmem)⟩

/-- A new transaction gets a new id. -/
theorem Erased.beginTransaction (h : m.Erased id) (isolation : IsolationLevel) (now : TimePoint) :
    (m.beginTransaction isolation now).2.Erased id := by
  rw [DefaultTransactionManager.beginTransaction]
  split_ifs with hrunning
  · exact h
  · refine ⟨Nat.lt_succ_of_lt h.known, ?_⟩
    intro hmem
    rcases (AList.mem_insert _).mp hmem with rfl | hmem
    · exact absurd h.known (lt_irrefl _)
    · exact h.gone hmem

theorem Erased.managerFunction (h : m.Erased id) {action : TransactionAction}
    {f : DefaultTransactionManager → DefaultTransactionManager}
    (hf : action.managerFunction = some f) : (f m).Erased id :=
  invariant_of_managerFunction (fun m => Erased m id) (fun _ _ hm hsettles => hm.settles hsettles)
    (fun isolation now _ => h.beginTransaction isolation now) hf h

theorem erased_eraseTransaction (h : id < m.nextTransactionId) : (m.eraseTransaction id).Erased id :=
  ⟨h, fun hmem => (AList.mem_erase.mp hmem).1 rfl⟩

/-- A commit that succeeds erases the record. -/
theorem erased_commitTransaction (hsound : m.Sound) {i : IterationOrder} {clock : ℕ → TimePoint}
    (hok : (m.commitTransaction i clock id).1 = .ok ()) :
    (m.commitTransaction i clock id).2.Erased id := by
  obtain ⟨tx, htx, hcommit, hrefused⟩ := commitTransaction_ok_iff.mp hok
  rw [commitTransaction_of_not_refused htx hcommit hrefused]
  exact erased_eraseTransaction (hsound.known id (mem_of_lookup htx))

/-- So does an abort. -/
theorem erased_abortTransaction (hsound : m.Sound) {i : IterationOrder} {clock : ℕ → TimePoint}
    (hok : (m.abortTransaction i clock id).1 = .ok ()) :
    (m.abortTransaction i clock id).2.Erased id := by
  rw [abortTransaction_eq] at hok ⊢
  rcases hvalid : m.validateTransaction (clock 0) id with failure | tx
  · rw [hvalid] at hok
    cases hok
  · have htx := (validateTransaction_eq_ok.mp hvalid).1
    exact erased_eraseTransaction (hsound.known id (mem_of_lookup htx))

end DefaultTransactionManager

namespace TransactionSystem

variable {s : TransactionSystem} {id : TransactionId}

/-! ## A transaction without a record stays without one -/

theorem erased_exclusively (h : s.manager.Erased id)
    {f : DefaultTransactionManager → DefaultTransactionManager} (hf : (f s.manager).Erased id) :
    (s.exclusively f).manager.Erased id := by
  rcases s.exclusively_cases f with ⟨-, hafter⟩ | ⟨-, hsame⟩
  · rw [hafter]
    exact hf
  · rw [hsame]
    exact h

theorem erased_step (h : s.manager.Erased id) (action : TransactionAction) :
    (s.step action).manager.Erased id := by
  -- the actions that are no function of the manager alone
  rcases hfunction : action.managerFunction with _ | f
  · cases action with
    | call now t key operation =>
        rw [step]
        rcases s.enter_cases now t key operation with hsame | ⟨c, -, -, hafter⟩
        · rw [hsame]
          exact h
        · rw [hafter]
          exact h
    | acquire n moment =>
        rw [step]
        rcases s.acquire_cases n moment with ⟨-, hsame⟩ | ⟨_, _, _, call, calls, -, hafter, -⟩
        · rw [hsame]
          exact h
        · rw [hafter]
          exact ⟨h.known, h.gone⟩
    | record n clock =>
        rw [step]
        rcases s.record_cases n clock with ⟨-, hsame⟩ | ⟨_, _, _, lock, -, -, hafter⟩
        · rw [hsame]
          exact h
        · rw [hafter]
          exact h.settles (DefaultTransactionManager.settles_recordOperation clock _ lock)
    | detectDeadlocks order =>
        rw [step]
        split_ifs
        · exact h
        · exact h
    | resolveDeadlock order =>
        rw [step]
        rcases s.deadlocks with _ | ⟨cycle, deadlocks⟩
        · exact h
        · exact ⟨h.known, h.gone⟩
    | _ => cases hfunction
  · rw [step_of_managerFunction hfunction]
    exact erased_exclusively h (h.managerFunction hfunction)

/-- **An erased transaction is reported as aborted for ever.** -/
theorem getTransactionState_run_of_erased (h : s.manager.Erased id)
    (actions : List TransactionAction) :
    (s.run actions).manager.getTransactionState id = .aborted :=
  (StepRun.invariant (fun s : TransactionSystem => s.manager.Erased id)
    (fun _ action hs => erased_step hs action) h actions).getTransactionState

/-! ## What is reported after a decision -/

/-- `commit_transaction` gets `mutex_` and returns `OK`. -/
def Commits (s : TransactionSystem) (order : IterationOrder) (clock : ℕ → TimePoint)
    (id : TransactionId) : Prop :=
  s.calls = [] ∧ (s.manager.commitTransaction order clock id).1 = .ok ()

/-- `abort_transaction` gets `mutex_` and returns `OK`. -/
def Aborts (s : TransactionSystem) (order : IterationOrder) (clock : ℕ → TimePoint)
    (id : TransactionId) : Prop :=
  s.calls = [] ∧ (s.manager.abortTransaction order clock id).1 = .ok ()

/-- After a commit or an abort has returned `OK`, that outcome is reported at any
later time in the run. -/
structure OutcomesReported (actions : List TransactionAction) : Prop where
  committed : ∀ before order clock id after,
    before ++ .commitTransaction order clock id :: after <+: actions →
    (create.run before).Commits order clock id →
    (create.run (before ++ .commitTransaction order clock id :: after)).manager.getTransactionState
      id = .committed
  aborted : ∀ before order clock id after,
    before ++ .abortTransaction order clock id :: after <+: actions →
    (create.run before).Aborts order clock id →
    (create.run (before ++ .abortTransaction order clock id :: after)).manager.getTransactionState
      id = .aborted

/-- The step is no commit of an active transaction that is there, has not expired
and was not refused. -/
def NeverCommits (s : TransactionSystem) : TransactionAction → Prop
  | .commitTransaction _ clock id => s.calls = [] →
      ∀ tx, s.manager.transactions.lookup id = some tx → tx.Committable (clock 0) → tx.Refused
  | _ => True

/-- A step that erases the record of a transaction has it reported as aborted. -/
theorem getTransactionState_of_erases {before after : List TransactionAction}
    {action : TransactionAction} {f : DefaultTransactionManager → DefaultTransactionManager}
    (hcalls : (create.run before).calls = [])
    (hstep : (create.run before).step action = (create.run before).exclusively f)
    (herased : (f (create.run before).manager).Erased id) :
    (create.run (before ++ action :: after)).manager.getTransactionState id = .aborted := by
  rw [exclusively, if_pos (List.isEmpty_iff.mpr hcalls)] at hstep
  rw [run_append]
  show (((create.run before).step action).run after).manager.getTransactionState id = .aborted
  rw [hstep]
  exact getTransactionState_run_of_erased herased after

/-- After a commit, the transaction is reported as aborted. -/
theorem getTransactionState_of_commits {before after : List TransactionAction}
    {order : IterationOrder} {clock : ℕ → TimePoint}
    (h : (create.run before).Commits order clock id) :
    (create.run (before ++ .commitTransaction order clock id :: after)).manager.getTransactionState
      id = .aborted := by
  have hstep : (create.run before).step (.commitTransaction order clock id)
      = (create.run before).exclusively fun m => (m.commitTransaction order clock id).2 := rfl
  exact getTransactionState_of_erases h.1 hstep
    (DefaultTransactionManager.erased_commitTransaction (SystemInv.run before).manager h.2)

/-- After an abort as well. -/
theorem getTransactionState_of_aborts {before after : List TransactionAction}
    {order : IterationOrder} {clock : ℕ → TimePoint}
    (h : (create.run before).Aborts order clock id) :
    (create.run (before ++ .abortTransaction order clock id :: after)).manager.getTransactionState
      id = .aborted := by
  have hstep : (create.run before).step (.abortTransaction order clock id)
      = (create.run before).exclusively fun m => (m.abortTransaction order clock id).2 := rfl
  exact getTransactionState_of_erases h.1 hstep
    (DefaultTransactionManager.erased_abortTransaction (SystemInv.run before).manager h.2)

/-- **What is reported is what happened exactly in the runs without a commit.** -/
theorem outcomesReported_iff_neverCommits (actions : List TransactionAction) :
    OutcomesReported actions ↔ Along step NeverCommits create actions := by
  rw [along_iff_forall]
  constructor
  · rintro h before action after rfl
    cases action with
    | commitTransaction order clock id =>
        intro hcalls tx htx hcommit
        by_contra hrefused
        have hcommits : (create.run before).Commits order clock id :=
          ⟨hcalls, DefaultTransactionManager.commitTransaction_ok_iff.mpr
            ⟨tx, htx, hcommit, hrefused⟩⟩
        have hreported := h.committed before order clock id after List.prefix_rfl hcommits
        rw [getTransactionState_of_commits hcommits] at hreported
        cases hreported
    | _ => trivial
  · intro h
    refine ⟨?_, ?_⟩
    · rintro before order clock id after ⟨rest, rfl⟩ ⟨hcalls, hok⟩
      obtain ⟨tx, htx, hcommit, hrefused⟩ :=
        DefaultTransactionManager.commitTransaction_ok_iff.mp hok
      have hnever := h before (.commitTransaction order clock id) (after ++ rest) (by simp)
      exact absurd (hnever hcalls tx htx hcommit) hrefused
    · intro before order clock id after _ haborts
      exact getTransactionState_of_aborts haborts

/-- A transaction is begun and committed. -/
def sampleCommitted : List TransactionAction :=
  [.start, .beginTransaction .readCommitted 0,
    .commitTransaction IterationOrder.listed (fun _ => 0) 1]

/-- **A committed transaction is reported as aborted.** -/
theorem not_outcomesReported_sampleCommitted : ¬ OutcomesReported sampleCommitted := by
  intro h
  have hcommits : (create.run [.start, .beginTransaction .readCommitted 0]).Commits
      IterationOrder.listed (fun _ => 0) 1 := ⟨rfl, by decide +kernel⟩
  have hreported := h.committed [.start, .beginTransaction .readCommitted 0] _ _ 1 []
    List.prefix_rfl hcommits
  rw [getTransactionState_of_commits hcommits] at hreported
  cases hreported

end TransactionSystem

end QcDatabase
