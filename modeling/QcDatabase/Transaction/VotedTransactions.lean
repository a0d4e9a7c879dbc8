/-
# Transactions that have voted

Once a transaction is no longer `ACTIVE` nothing should be recorded for it.  The
functions other than the data operations leave the operations and the locks of
every record alone and make no transaction active again (`Freezes`).  The data
operations check that the transaction is there and has not expired, and not its
state: `OnlyActive` excludes the steps in which one that is not active gets a
lock, or needs none, and `frozen_of_onlyActive` is the result.
-/
import QcDatabase.Transaction.SystemInvariant
import QcDatabase.Transaction.TwoPhaseCommit

open StepRun UnorderedMap

namespace QcDatabase

/-- The operations and the locks of the record are the same. -/
def DistributedTransaction.SameData (tx tx' : DistributedTransaction) : Prop :=
  tx'.operations = tx.operations ∧ tx'.heldLocks = tx.heldLocks

namespace DefaultTransactionManager

/-! ## The functions that record nothing -/

/-- No transaction gets or loses an operation or a lock, or becomes active. -/
structure Freezes (m m' : DefaultTransactionManager) : Prop where
  next : m.nextTransactionId ≤ m'.nextTransactionId
  records : ∀ t < m.nextTransactionId, ∀ tx', m'.transactions.lookup t = some tx' →
    ∃ tx, m.transactions.lookup t = some tx ∧ tx.SameData tx' ∧
      (tx'.state = .active → tx.state = .active)

section

variable {m m' m'' : DefaultTransactionManager} {id : TransactionId}
  {tx tx' : DistributedTransaction}

theorem Freezes.refl (m : DefaultTransactionManager) : Freezes m m :=
  ⟨le_refl _, fun _ _ tx htx => ⟨tx, htx, ⟨rfl, rfl⟩, fun hactive => hactive⟩⟩

theorem Freezes.trans (h : Freezes m m') (h' : Freezes m' m'') : Freezes m m'' := by
  refine ⟨h.next.trans h'.next, ?_⟩
  intro t ht tx'' htx''
  obtain ⟨tx', htx', hdata', hactive'⟩ := h'.records t (lt_of_lt_of_le ht h.next) tx'' htx''
  obtain ⟨tx, htx, hdata, hactive⟩ := h.records t ht tx' htx'
  exact ⟨tx, htx, ⟨hdata'.1.trans hdata.1, hdata'.2.trans hdata.2⟩,
    fun hstate => hactive (hactive' hstate)⟩

theorem freezes_setTransaction (htx : m.transactions.lookup id = some tx) (hdata : tx.SameData tx')
    (hstate : tx'.state ≠ .active) : Freezes m (m.setTransaction id tx') := by
  refine ⟨le_refl _, ?_⟩
  intro t _ found hfound
  rcases lookup_insert_cases hfound with ⟨rfl, rfl⟩ | ⟨-, hold⟩
  · exact ⟨tx, htx, hdata, fun hactive => absurd hactive hstate⟩
  · exact ⟨found, hold, ⟨rfl, rfl⟩, fun hactive => hactive⟩

theorem freezes_eraseTransaction : Freezes m (m.eraseTransaction id) := by
  refine ⟨le_refl _, ?_⟩
  intro t _ found hfound
  exact ⟨found, (lookup_erase_eq_some.mp hfound).2, ⟨rfl, rfl⟩, fun hactive => hactive⟩

theorem freezes_releaseAllLocks (i : IterationOrder) : Freezes m (m.releaseAllLocks i id) :=
  ⟨le_refl _, fun _ _ tx htx => ⟨tx, htx, ⟨rfl, rfl⟩, fun hactive => hactive⟩⟩

theorem freezes_beginTransaction (isolation : IsolationLevel) (now : TimePoint) :
    Freezes m (m.beginTransaction isolation now).2 := by
  rw [beginTransaction]
  split_ifs with hrunning
  · exact Freezes.refl m
  · refine ⟨Nat.le_succ _, ?_⟩
    intro t ht found hfound
    rcases lookup_insert_cases hfound with ⟨rfl, -⟩ | ⟨-, hold⟩
    · exact absurd ht (lt_irrefl _)
    · exact ⟨found, hold, ⟨rfl, rfl⟩, fun hactive => hactive⟩

theorem freezes_abortTransaction (i : IterationOrder) (clock : ℕ → TimePoint) :
    Freezes m (m.abortTransaction i clock id).2 := by
  rw [abortTransaction_eq]
  rcases m.validateTransaction (clock 0) id with failure | tx
  · exact Freezes.refl m
  · exact (freezes_releaseAllLocks i).trans freezes_eraseTransaction

theorem freezes_commitTransaction (i : IterationOrder) (clock : ℕ → TimePoint) :
    Freezes m (m.commitTransaction i clock id).2 := by
  rw [commitTransaction_eq]
  rcases m.validateTransaction (clock 0) id with failure | tx
  · exact Freezes.refl m
  · dsimp only
    split_ifs with hactive hvotes
    · exact Freezes.refl m
    · exact freezes_eraseTransaction
    · exact (freezes_releaseAllLocks i).trans freezes_eraseTransaction

theorem freezes_prepare (clock : ℕ → TimePoint) : Freezes m (m.prepare clock id).2 := by
  rw [prepare]
  rcases hvalid : m.validateTransaction (clock 0) id with failure | tx
  · exact Freezes.refl m
  · dsimp only
    split_ifs with hactive
    · exact Freezes.refl m
    · exact freezes_setTransaction (validateTransaction_eq_ok.mp hvalid).1 ⟨rfl, rfl⟩
        TransactionState.noConfusion

theorem freezes_handleTpcMessage (message : TpcMessage) :
    Freezes m (m.handleTpcMessage message).2 := by
  refine ⟨(settles_handleTpcMessage message).next.ge, ?_⟩
  intro t _ tx' htx'
  obtain ⟨tx, htx, -⟩ := (settles_handleTpcMessage message).transactions t tx' htx'
  obtain ⟨found, hfound, hreceived⟩ := received_receive message htx
  obtain rfl := Option.some.inj (htx'.symm.trans hfound)
  refine ⟨tx, htx, ⟨hreceived.operations, hreceived.heldLocks⟩, ?_⟩
  intro hactive
  rw [hreceived.state] at hactive
  rcases hassigns : message.assigns t with _ | state
  · rwa [hassigns, Option.getD_none] at hactive
  · rw [hassigns, Option.getD_some] at hactive
    exact absurd (hactive ▸ hassigns) (message.assigns_ne_active t)

theorem freezes_cleanupExpiredTransactions (i : IterationOrder) (seen : TransactionId → TimePoint)
    (clock : TransactionId → ℕ → TimePoint) :
    Freezes m (m.cleanupExpiredTransactions i seen clock) := by
  rw [cleanupExpiredTransactions]
  apply StepRun.invariant (fun m' => Freezes m m') _ (Freezes.refl m)
  intro m' t hm'
  exact hm'.trans (freezes_abortTransaction i (clock t))

theorem freezes_managerFunction {action : TransactionAction}
    {f : DefaultTransactionManager → DefaultTransactionManager}
    (hf : action.managerFunction = some f) : Freezes m (f m) := by
  have hnothing := Freezes.refl m
  cases action with
  | start =>
      cases hf
      exact ⟨hnothing.next, hnothing.records⟩
  | stop =>
      cases hf
      exact ⟨hnothing.next, hnothing.records⟩
  | setDefaultTimeout timeout =>
      cases hf
      exact ⟨hnothing.next, hnothing.records⟩
  | beginTransaction isolation now =>
      cases hf
      exact freezes_beginTransaction isolation now
  | commitTransaction order clock t =>
      cases hf
      exact freezes_commitTransaction order clock
  | abortTransaction order clock t =>
      cases hf
      exact freezes_abortTransaction order clock
  | prepare clock t =>
      cases hf
      exact freezes_prepare clock
  | handleTpcMessage message =>
      cases hf
      exact freezes_handleTpcMessage message
  | cleanupExpiredTransactions order seen clock =>
      cases hf
      exact freezes_cleanupExpiredTransactions order seen clock
  | call now t key operation => cases hf
  | acquire n moment => cases hf
  | record n clock => cases hf
  | detectDeadlocks order => cases hf
  | resolveDeadlock order => cases hf

end

end DefaultTransactionManager

namespace TransactionSystem

/-! ## The data operations -/

/-- No transaction that is not active gets a lock for an operation in the step,
or starts an operation that needs none. -/
def OnlyActive (s : TransactionSystem) : TransactionAction → Prop
  | .call now id _ operation => s.mutexFree operation = true →
      ∀ tx, s.manager.transactions.lookup id = some tx → tx.isExpired now = false →
        operation.lockType tx.isolationLevel = none → tx.state = .active
  | .acquire n _ => ∀ c ∈ s.calls[n]?, ∀ call ∈ c.lockCall,
      call.Grantable s.manager.lockManager → s.manager.getTransactionState c.transactionId = .active
  | _ => True

instance (s : TransactionSystem) (action : TransactionAction) : Decidable (s.OnlyActive action) :=
  match action with
  | .call now id _ operation => inferInstanceAs (Decidable (s.mutexFree operation = true →
      ∀ tx ∈ s.manager.transactions.lookup id, tx.isExpired now = false →
        operation.lockType tx.isolationLevel = none → tx.state = .active))
  | .acquire n _ => inferInstanceAs (Decidable (∀ c ∈ s.calls[n]?, ∀ call ∈ c.lockCall,
      call.Grantable s.manager.lockManager → s.manager.getTransactionState c.transactionId = .active))
  | .start | .stop | .setDefaultTimeout _ | .beginTransaction _ _ | .commitTransaction _ _ _
  | .abortTransaction _ _ _ | .prepare _ _ | .handleTpcMessage _ | .cleanupExpiredTransactions _ _ _
  | .record _ _ | .detectDeadlocks _ | .resolveDeadlock _ => inferInstanceAs (Decidable True)

/-- The operations that are about to be recorded are those of active transactions. -/
def RecordsActive (s : TransactionSystem) : Prop :=
  ∀ c ∈ s.calls, ∀ lock, c.phase = .recording lock →
    s.manager.getTransactionState c.transactionId = .active

/-- The transaction was begun and is not active any more. -/
structure LeftActive (s : TransactionSystem) (id : TransactionId) : Prop where
  known : id < s.manager.nextTransactionId
  state : s.manager.getTransactionState id ≠ .active

/-- What the record of the transaction holds in `s'` it held in `s`. -/
def Keeps (s s' : TransactionSystem) (id : TransactionId) : Prop :=
  ∀ tx', s'.manager.transactions.lookup id = some tx' →
    ∃ tx, s.manager.transactions.lookup id = some tx ∧ tx.SameData tx'

section

variable {s : TransactionSystem} {id : TransactionId}

/-- What recording an operation does to another transaction: nothing. -/
theorem lookup_recordOperation_ne {m : DefaultTransactionManager} {clock : ℕ → TimePoint}
    {c : DataCall} {lock : Option LockId} (hne : id ≠ c.transactionId) :
    (m.recordOperation clock c lock).2.transactions.lookup id = m.transactions.lookup id := by
  rw [DefaultTransactionManager.recordOperation]
  rcases m.transactions.lookup c.transactionId with _ | tx
  · rfl
  · dsimp only
    rw [DefaultTransactionManager.lookup_setTransaction, if_neg hne]

/-- Recording an operation changes no state. -/
theorem getTransactionState_recordOperation {m : DefaultTransactionManager}
    {clock : ℕ → TimePoint} {c : DataCall} {lock : Option LockId} :
    (m.recordOperation clock c lock).2.getTransactionState id = m.getTransactionState id := by
  by_cases hid : id = c.transactionId
  · subst hid
    rw [DefaultTransactionManager.recordOperation]
    rcases hlookup : m.transactions.lookup c.transactionId with _ | tx
    · rfl
    · rw [DefaultTransactionManager.getTransactionState_of_lookup hlookup]
      dsimp only
      rw [DefaultTransactionManager.getTransactionState,
        DefaultTransactionManager.lookup_setTransaction, if_pos rfl]
      rfl
  · rw [DefaultTransactionManager.getTransactionState, lookup_recordOperation_ne hid,
      DefaultTransactionManager.getTransactionState]

/-! ## Only operations of active transactions are recorded -/

theorem recordsActive_create : create.RecordsActive := fun _ hc => absurd hc List.not_mem_nil

theorem recordsActive_exclusively (h : s.RecordsActive)
    {f : DefaultTransactionManager → DefaultTransactionManager} :
    (s.exclusively f).RecordsActive := by
  rcases s.exclusively_cases f with ⟨hnil, hafter⟩ | ⟨-, hsame⟩
  · rw [hafter]
    intro c hc
    rw [show s.calls = [] from hnil] at hc
    exact absurd hc List.not_mem_nil
  · rw [hsame]
    exact h

theorem recordsActive_enter (h : s.RecordsActive) {now : TimePoint} {key : MultiLevelKey}
    {operation : DataOperation} (honly : s.OnlyActive (.call now id key operation)) :
    (s.enter now id key operation).RecordsActive := by
  rcases s.enter_cases now id key operation with hsame | ⟨c, hfree, hstart, hafter⟩
  · rw [hsame]
    exact h
  · rw [hafter]
    intro c' hc' lock hphase
    rcases List.mem_append.mp hc' with hold | hnew
    · exact h c' hold lock hphase
    · obtain rfl := List.mem_singleton.mp hnew
      obtain ⟨tx, htx, hexpired, ⟨htype, rfl⟩ | ⟨type, -, rfl⟩⟩ :=
        DefaultTransactionManager.startCall_ok hstart
      · -- a call that needs no lock
        dsimp only
        rw [DefaultTransactionManager.getTransactionState_of_lookup htx]
        exact honly hfree tx htx hexpired htype
      · cases hphase

theorem recordsActive_acquire (h : s.RecordsActive) {n : ℕ} {moment : Moment}
    (honly : s.OnlyActive (.acquire n moment)) : (s.acquire n moment).RecordsActive := by
  rcases s.acquire_cases n moment with
    ⟨-, hsame⟩ | ⟨t, key, operation, call, calls, hn, hafter, hcalls⟩
  · rw [hsame]
    exact h
  · rw [hafter]
    intro c hc lock' hphase
    rcases hcalls c hc with hold | ⟨lock, hlock, rfl⟩ | ⟨next, -, rfl⟩
    · exact h c hold lock' hphase
    · -- the call that got its lock
      apply honly _ hn call rfl
      by_contra hgrant
      exact (call.advance_of_not_grantable hgrant moment).2 lock hlock
    · cases hphase

theorem recordsActive_record (h : s.RecordsActive) (n : ℕ) (clock : ℕ → TimePoint) :
    (s.record n clock).RecordsActive := by
  rcases s.record_cases n clock with ⟨-, hsame⟩ | ⟨_, _, _, lock, -, -, hafter⟩
  · rw [hsame]
    exact h
  · rw [hafter]
    intro c hc lock' hphase
    dsimp only
    rw [getTransactionState_recordOperation]
    exact h c (List.mem_of_mem_eraseIdx hc) lock' hphase

/-- **Step lemma.** -/
theorem recordsActive_step (h : s.RecordsActive) {action : TransactionAction}
    (honly : s.OnlyActive action) : (s.step action).RecordsActive := by
  cases action with
  | call now t key operation => exact recordsActive_enter h honly
  | acquire n moment => exact recordsActive_acquire h honly
  | record n clock => exact recordsActive_record h n clock
  | detectDeadlocks order =>
      rw [step]
      split_ifs
      · exact h
      · exact h
  | resolveDeadlock order =>
      rw [step]
      rcases s.deadlocks with _ | ⟨cycle, deadlocks⟩
      · exact h
      · exact h
  | _ => exact recordsActive_exclusively h

/-! ## A transaction that has left `ACTIVE` is frozen -/

theorem freezes_exclusively {f : DefaultTransactionManager → DefaultTransactionManager}
    (hf : s.manager.Freezes (f s.manager)) : s.manager.Freezes (s.exclusively f).manager := by
  rcases s.exclusively_cases f with ⟨-, hafter⟩ | ⟨-, hsame⟩
  · rw [hafter]
    exact hf
  · rw [hsame]
    exact DefaultTransactionManager.Freezes.refl s.manager

/-- Everything but the end of a data operation leaves the records alone. -/
theorem freezes_step {action : TransactionAction} (hrecord : ∀ n clock, action ≠ .record n clock) :
    s.manager.Freezes (s.step action).manager := by
  have hsame : ∀ lockManager, s.manager.Freezes { s.manager with lockManager := lockManager } :=
    fun _ => ⟨le_refl _, fun _ _ tx htx => ⟨tx, htx, ⟨rfl, rfl⟩, fun hactive => hactive⟩⟩
  have hnothing := DefaultTransactionManager.Freezes.refl s.manager
  rcases hfunction : action.managerFunction with _ | f
  · cases action with
    | call now t key operation =>
        rw [step]
        rcases s.enter_cases now t key operation with hafter | ⟨c, -, -, hafter⟩ <;> rw [hafter]
        · exact hnothing
        · exact hnothing
    | acquire n moment =>
        rw [step]
        rcases s.acquire_cases n moment with ⟨-, hafter⟩ | ⟨_, _, _, call, calls, -, hafter, -⟩ <;>
          rw [hafter]
        · exact hnothing
        · exact hsame _
    | record n clock => exact absurd rfl (hrecord n clock)
    | detectDeadlocks order =>
        rw [step]
        split_ifs <;> exact hnothing
    | resolveDeadlock order =>
        rw [step]
        rcases s.deadlocks with _ | ⟨cycle, deadlocks⟩
        · exact hnothing
        · exact hsame _
    | _ => cases hfunction
  · rw [step_of_managerFunction hfunction]
    exact freezes_exclusively (DefaultTransactionManager.freezes_managerFunction hfunction)

/-- What freezing means for a transaction that is not active. -/
theorem LeftActive.freezes {s' : TransactionSystem} (h : s.LeftActive id)
    (hfreezes : s.manager.Freezes s'.manager) : s'.LeftActive id ∧ Keeps s s' id := by
  refine ⟨⟨lt_of_lt_of_le h.known hfreezes.next, ?_⟩, ?_⟩
  · intro hactive
    rcases hlookup : s'.manager.transactions.lookup id with _ | tx'
    · rw [DefaultTransactionManager.getTransactionState, hlookup] at hactive
      cases hactive
    · obtain ⟨tx, htx, -, hstate⟩ := hfreezes.records id h.known tx' hlookup
      rw [DefaultTransactionManager.getTransactionState_of_lookup hlookup] at hactive
      apply h.state
      rw [DefaultTransactionManager.getTransactionState_of_lookup htx]
      exact hstate hactive
  · intro tx' htx'
    obtain ⟨tx, htx, hdata, -⟩ := hfreezes.records id h.known tx' htx'
    exact ⟨tx, htx, hdata⟩

/-- **Step lemma.**  Nothing is recorded for a transaction that is not active. -/
theorem LeftActive.step (h : s.LeftActive id) (hrecords : s.RecordsActive)
    (action : TransactionAction) :
    (s.step action).LeftActive id ∧ Keeps s (s.step action) id ∧
      ∀ e ∈ (s.recorded action).toList, e.transactionId ≠ id := by
  by_cases hrecord : ∃ n clock, action = .record n clock
  · obtain ⟨n, clock, rfl⟩ := hrecord
    rw [TransactionSystem.step]
    rcases s.record_cases n clock with
      ⟨hnone, hsame⟩ | ⟨t, key, operation, lock, hn, hrecorded, hafter⟩
    · rw [hnone, hsame]
      exact ⟨h, fun tx htx => ⟨tx, htx, rfl, rfl⟩, fun e he => absurd he List.not_mem_nil⟩
    · have hactive := hrecords _ (List.mem_of_getElem? hn) lock rfl
      have hne : id ≠ t := by
        rintro rfl
        exact h.state hactive
      rw [hrecorded, hafter]
      refine ⟨⟨?_, ?_⟩, ?_, ?_⟩
      · exact (DefaultTransactionManager.settles_recordOperation clock _ lock).next.symm ▸ h.known
      · dsimp only
        rw [getTransactionState_recordOperation]
        exact h.state
      · intro tx htx
        dsimp only at htx
        rw [lookup_recordOperation_ne hne] at htx
        exact ⟨tx, htx, rfl, rfl⟩
      · intro e he
        rw [List.mem_singleton.mp he]
        exact hne.symm
  · have hfreezes : s.manager.Freezes (s.step action).manager :=
      freezes_step fun n clock heq => hrecord ⟨n, clock, heq⟩
    refine ⟨(h.freezes hfreezes).1, (h.freezes hfreezes).2, ?_⟩
    intro e he
    cases action with
    | record n clock => exact absurd ⟨n, clock, rfl⟩ hrecord
    | _ => exact absurd he List.not_mem_nil

/-- It stays frozen to the end of a run. -/
theorem LeftActive.run (h : s.LeftActive id) (hrecords : s.RecordsActive)
    {actions : List TransactionAction} (honly : Along TransactionSystem.step OnlyActive s actions) :
    Keeps s (s.run actions) id ∧ ∀ e ∈ s.history actions, e.transactionId ≠ id := by
  induction actions generalizing s with
  | nil => exact ⟨fun tx htx => ⟨tx, htx, rfl, rfl⟩, fun e he => absurd he List.not_mem_nil⟩
  | cons action actions ih =>
      obtain ⟨hleft, hkeeps, hrecorded⟩ := h.step hrecords action
      obtain ⟨hrest, hhistory⟩ := ih hleft (recordsActive_step hrecords honly.1) honly.2
      refine ⟨?_, ?_⟩
      · intro tx'' htx''
        obtain ⟨tx', htx', hdata'⟩ := hrest tx'' htx''
        obtain ⟨tx, htx, hdata⟩ := hkeeps tx' htx'
        exact ⟨tx, htx, hdata'.1.trans hdata.1, hdata'.2.trans hdata.2⟩
      · intro e he
        rw [history] at he
        rcases List.mem_append.mp he with hnow | hlater
        · exact hrecorded e hnow
        · exact hhistory e hlater

end

/-- **A transaction that has voted is frozen while only active ones get locks**:
once its state has left `ACTIVE`, no data operation on it is recorded, and the
record keeps its operations and its locks. -/
theorem frozen_of_onlyActive {before after : List TransactionAction}
    (h : Along step OnlyActive create (before ++ after)) {id : TransactionId}
    (hleft : (create.run before).LeftActive id) :
    (∀ e ∈ (create.run before).history after, e.transactionId ≠ id) ∧
      ∀ tx', (create.run (before ++ after)).manager.transactions.lookup id = some tx' →
        ∃ tx, (create.run before).manager.transactions.lookup id = some tx ∧
          tx'.operations = tx.operations ∧ tx'.heldLocks = tx.heldLocks := by
  obtain ⟨hbefore, hafter⟩ := along_append.mp h
  have hrecords : (create.run before).RecordsActive :=
    hbefore.invariant RecordsActive (fun _ _ hs honly => recordsActive_step hs honly)
      recordsActive_create
  obtain ⟨hkeeps, hhistory⟩ := hleft.run hrecords hafter
  rw [run_append]
  exact ⟨hhistory, hkeeps⟩

/-- Two transactions write a row each, and the first one votes. -/
def sampleVoted : List TransactionAction :=
  [.start, .beginTransaction .readCommitted 0, .beginTransaction .readCommitted 0,
    .call 0 1 ⟨[97], []⟩ .remove, .acquire 0 (momentAt 0), .record 0 fun _ => 0,
    .call 0 2 ⟨[98], []⟩ .remove, .acquire 0 (momentAt 0), .record 0 fun _ => 0,
    .prepare (fun _ => 0) 1]

/-- The first one wants the row of the second as well, and does not get it in time. -/
def sampleTooLate : List TransactionAction :=
  [.call 0 1 ⟨[98], []⟩ .remove, .acquire 0 (momentAt 0), .acquire 0 (momentAt 6000000000)]

theorem frozen_of_onlyActive_sample :
    (create.run sampleVoted).LeftActive 1 ∧
      Along step OnlyActive create (sampleVoted ++ sampleTooLate) ∧
      Keeps (create.run sampleVoted) (create.run (sampleVoted ++ sampleTooLate)) 1 := by
  have hleft : (create.run sampleVoted).LeftActive 1 := ⟨by decide +kernel, by decide +kernel⟩
  have honly : Along step OnlyActive create (sampleVoted ++ sampleTooLate) := by decide +kernel
  exact ⟨hleft, honly, (frozen_of_onlyActive honly hleft).2⟩

/-- **A write after the vote**: the first transaction removes another row, which
is free. -/
theorem not_frozen_sampleVoted :
    ¬ ∀ id, (create.run sampleVoted).LeftActive id →
      ∀ e ∈ (create.run sampleVoted).history
        [.call 0 1 ⟨[99], []⟩ .remove, .acquire 0 (momentAt 0), .record 0 fun _ => 0],
        e.transactionId ≠ id := by
  intro hfrozen
  have hleft : (create.run sampleVoted).LeftActive 1 := ⟨by decide +kernel, by decide +kernel⟩
  have hrecorded : ((create.run sampleVoted).history
      [.call 0 1 ⟨[99], []⟩ .remove, .acquire 0 (momentAt 0), .record 0 fun _ => 0]).map
        (fun e => e.transactionId) = [1] := by decide +kernel
  obtain ⟨e, he, htx⟩ := List.mem_map.mp (hrecorded ▸ List.mem_singleton_self 1)
  exact hfrozen 1 hleft e he htx

end TransactionSystem

end QcDatabase
