/-
# Two-phase locking

The invariant on the manager and the operations recorded so far (`TwoPhase`):
an operation is covered by a lock until its transaction is gone, and a
transaction that precedes another one is gone.

Whatever holds `mutex_` exclusively only *settles* transactions: it changes
records, erases them, and releases the locks of one transaction with its record
(`Settles`).  `TwoPhase.settles` and `TwoPhase.concat`, for the recording of one
more operation, are the two steps the invariant has.
-/
import QcDatabase.Lib.StepRuns
import QcDatabase.Transaction.Schedules
import QcDatabase.Transaction.WaitGraph

open Relation UnorderedMap

namespace QcDatabase

/-! ## Locks and transactions -/

/-- The transaction holds a lock on the key, an exclusive one for an update. -/
def DefaultLockManager.Holds (m : DefaultLockManager) (tx : TransactionId) (key : MultiLevelKey)
    (type : OperationType) : Prop :=
  ∃ id l, m.locks.lookup id = some l ∧ l.transactionId = tx ∧ l.key = key ∧
    (type.IsUpdate → l.type = .exclusive)

namespace DefaultLockManager

variable {m m' : DefaultLockManager} {c : LockCall} {i : IterationOrder}
  {result : Result LockId ⊕ LockCall} {id : LockId} {l : LockInfo}

/-- A stretch of `acquire_lock` releases nothing. -/
theorem WellFormed.lookup_of_stretch (h : m.WellFormed) (hstep : c.Stretch m i result m')
    (hl : m.locks.lookup id = some l) : m'.locks.lookup id = some l := by
  cases hstep with
  | granted now timeout hfree => exact h.lookup_grant_of_some hl
  | refused failure holder => exact hl
  | waiting existing deadline hnone => exact hl
  | timedOut failure holder => exact hl
  | retrying timeout => exact hl

/-- A stretch of `acquire_lock` adds locks of its own transaction only. -/
theorem lookup_stretch (hstep : c.Stretch m i result m') (hl : m'.locks.lookup id = some l) :
    l.transactionId = c.request.transactionId ∨ m.locks.lookup id = some l := by
  cases hstep with
  | granted now timeout hfree =>
      rcases lookup_grant hl with ⟨-, rfl⟩ | ⟨-, hold⟩
      · exact Or.inl rfl
      · exact Or.inr hold
  | refused failure holder => exact Or.inr hl
  | waiting existing deadline hnone => exact Or.inr hl
  | timedOut failure holder => exact Or.inr hl
  | retrying timeout => exact Or.inr hl

theorem WellFormed.holds_of_stretch (h : m.WellFormed) (hstep : c.Stretch m i result m')
    {tx : TransactionId} {key : MultiLevelKey} {type : OperationType} (hholds : m.Holds tx key type) :
    m'.Holds tx key type := by
  obtain ⟨id, l, hl, hrest⟩ := hholds
  exact ⟨id, l, h.lookup_of_stretch hstep hl, hrest⟩

/-- Locks that two transactions hold on one key belong to no conflict. -/
theorem WellFormed.not_isUpdate (h : m.WellFormed) {t u : TransactionId} {key : MultiLevelKey}
    {a b : OperationType} (ht : m.Holds t key a) (hu : m.Holds u key b) (hne : t ≠ u) :
    ¬ (a.IsUpdate ∨ b.IsUpdate) := by
  obtain ⟨id₁, l₁, hl₁, rfl, rfl, ha⟩ := ht
  obtain ⟨id₂, l₂, hl₂, rfl, hkey, hb⟩ := hu
  have hcompatible := (h.exclusive id₁ id₂ l₁ l₂ hl₁ hl₂ hkey.symm hne).1
  rintro (hupdate | hupdate)
  · rw [ha hupdate] at hcompatible
    cases hcompatible
  · rw [hb hupdate, isLockCompatible_exclusive] at hcompatible
    cases hcompatible

end DefaultLockManager

namespace DefaultTransactionManager

/-- The transaction is over and its locks are released. -/
structure Gone (m : DefaultTransactionManager) (tx : TransactionId) : Prop where
  known : tx < m.nextTransactionId
  erased : tx ∉ m.transactions
  unlocked : ∀ id l, m.lockManager.locks.lookup id = some l → l.transactionId ≠ tx

/-- What the functions that hold `mutex_` exclusively do to the transactions
there are: change records, erase them, and release the locks of one transaction
with its record. -/
structure Settles (m m' : DefaultTransactionManager) : Prop where
  next : m'.nextTransactionId = m.nextTransactionId
  transactions : ∀ t tx', m'.transactions.lookup t = some tx' →
    ∃ tx, m.transactions.lookup t = some tx ∧ tx'.isolationLevel = tx.isolationLevel
  locks : m'.lockManager = m.lockManager ∨
    ∃ i t, m'.lockManager = (m.lockManager.releaseAllLocks i t).2 ∧ t ∉ m'.transactions

/-! ## Every function settles -/

section

variable {m m' : DefaultTransactionManager} {id : TransactionId} {tx tx' : DistributedTransaction}

theorem Settles.refl (m : DefaultTransactionManager) : Settles m m :=
  ⟨rfl, fun _ tx htx => ⟨tx, htx, rfl⟩, Or.inl rfl⟩

/-- A record that is changed. -/
theorem settles_setTransaction (htx : m.transactions.lookup id = some tx)
    (hisolation : tx'.isolationLevel = tx.isolationLevel) : Settles m (m.setTransaction id tx') := by
  refine ⟨rfl, ?_, Or.inl rfl⟩
  intro t found hfound
  rcases lookup_insert_cases hfound with ⟨rfl, rfl⟩ | ⟨-, hold⟩
  · exact ⟨tx, htx, hisolation⟩
  · exact ⟨found, hold, rfl⟩

theorem settles_start : Settles m m.start.2 :=
  ⟨rfl, fun _ tx htx => ⟨tx, htx, rfl⟩, Or.inl rfl⟩

theorem settles_stop : Settles m m.stop.2 :=
  ⟨rfl, fun _ tx htx => ⟨tx, htx, rfl⟩, Or.inl rfl⟩

theorem settles_setDefaultTimeout (timeout : Milliseconds) :
    Settles m (m.setDefaultTimeout timeout) :=
  ⟨rfl, fun _ tx htx => ⟨tx, htx, rfl⟩, Or.inl rfl⟩

/-- A transaction that is dropped with its locks held. -/
theorem settles_eraseTransaction : Settles m (m.eraseTransaction id) := by
  refine ⟨rfl, ?_, Or.inl rfl⟩
  intro t tx htx
  exact ⟨tx, (lookup_erase_eq_some.mp htx).2, rfl⟩

/-- A transaction that ends with the release of its locks. -/
theorem settles_finish (i : IterationOrder) :
    Settles m ((m.releaseAllLocks i id).eraseTransaction id) := by
  refine ⟨rfl, ?_, Or.inr ⟨i, id, rfl, ?_⟩⟩
  · intro t tx htx
    exact ⟨tx, (lookup_erase_eq_some.mp htx).2, rfl⟩
  · intro hmem
    exact (AList.mem_erase.mp hmem).1 rfl

theorem settles_abortTransaction (i : IterationOrder) (clock : ℕ → TimePoint) :
    Settles m (m.abortTransaction i clock id).2 := by
  rw [abortTransaction_eq]
  rcases m.validateTransaction (clock 0) id with _ | tx
  · exact Settles.refl m
  · exact settles_finish i

theorem settles_commitTransaction (i : IterationOrder) (clock : ℕ → TimePoint) :
    Settles m (m.commitTransaction i clock id).2 := by
  rw [commitTransaction_eq]
  rcases m.validateTransaction (clock 0) id with _ | tx
  · exact Settles.refl m
  · dsimp only
    split_ifs with hactive hvotes
    · exact Settles.refl m
    · exact settles_eraseTransaction
    · exact settles_finish i

theorem settles_prepare (clock : ℕ → TimePoint) : Settles m (m.prepare clock id).2 := by
  rw [prepare]
  rcases hvalid : m.validateTransaction (clock 0) id with _ | tx
  · exact Settles.refl m
  · dsimp only
    split_ifs with hactive
    · exact Settles.refl m
    · exact settles_setTransaction (validateTransaction_eq_ok.mp hvalid).1 rfl

theorem settles_modifyTransaction {f : DistributedTransaction → DistributedTransaction}
    (hf : ∀ tx, (f tx).isolationLevel = tx.isolationLevel) :
    Settles m (m.modifyTransaction id f) := by
  rw [modifyTransaction]
  rcases hlookup : m.transactions.lookup id with _ | tx
  · exact Settles.refl m
  · exact settles_setTransaction hlookup (hf tx)

theorem settles_handleTpcMessage (message : TpcMessage) :
    Settles m (m.handleTpcMessage message).2 := by
  rw [handleTpcMessage]
  cases message.type with
  | prepare => exact settles_modifyTransaction fun _ => rfl
  | prepareOk => exact settles_modifyTransaction fun _ => rfl
  | prepareAbort => exact settles_modifyTransaction fun _ => rfl
  | commit => exact settles_modifyTransaction fun _ => rfl
  | commitOk => exact Settles.refl m
  | abort => exact settles_modifyTransaction fun _ => rfl
  | abortOk => exact Settles.refl m

theorem settles_recordOperation (clock : ℕ → TimePoint) (c : DataCall) (lock : Option LockId) :
    Settles m (m.recordOperation clock c lock).2 := by
  rw [recordOperation]
  rcases hlookup : m.transactions.lookup c.transactionId with _ | tx
  · exact Settles.refl m
  · exact settles_setTransaction hlookup rfl

/-- **What settling keeps**, the functions that hold `mutex_` exclusively keep,
if `begin_transaction` does. -/
theorem invariant_of_managerFunction (P : DefaultTransactionManager → Prop)
    (hsettles : ∀ m m', P m → Settles m m' → P m') {action : TransactionAction}
    (hbegin : ∀ isolation now, action = .beginTransaction isolation now →
      P (m.beginTransaction isolation now).2)
    {f : DefaultTransactionManager → DefaultTransactionManager}
    (hf : action.managerFunction = some f) (hm : P m) : P (f m) := by
  cases action with
  | start =>
      cases hf
      exact hsettles _ _ hm settles_start
  | stop =>
      cases hf
      exact hsettles _ _ hm settles_stop
  | setDefaultTimeout timeout =>
      cases hf
      exact hsettles _ _ hm (settles_setDefaultTimeout timeout)
  | beginTransaction isolation now =>
      cases hf
      exact hbegin isolation now rfl
  | commitTransaction order clock id =>
      cases hf
      exact hsettles _ _ hm (settles_commitTransaction order clock)
  | abortTransaction order clock id =>
      cases hf
      exact hsettles _ _ hm (settles_abortTransaction order clock)
  | prepare clock id =>
      cases hf
      exact hsettles _ _ hm (settles_prepare clock)
  | handleTpcMessage message =>
      cases hf
      exact hsettles _ _ hm (settles_handleTpcMessage message)
  | cleanupExpiredTransactions order seen clock =>
      -- one abort after the other
      cases hf
      apply StepRun.invariant P _ hm
      intro m id hm
      exact hsettles _ _ hm (settles_abortTransaction order (clock id))
  | call now id key operation => cases hf
  | acquire n moment => cases hf
  | record n clock => cases hf
  | detectDeadlocks order => cases hf
  | resolveDeadlock order => cases hf

end

/-! ## The invariant of two-phase locking -/

/-- The precedence graph of the recorded operations. -/
abbrev PrecedenceGraph (log : List RecordedOperation) : TransactionId → TransactionId → Prop :=
  Precedes RecordedOperation.transactionId RecordedOperation.Conflict log

/-- The manager and the operations recorded so far: an operation is covered by
a lock until its transaction is gone, and a transaction that precedes another
one is gone. -/
structure TwoPhase (m : DefaultTransactionManager) (log : List RecordedOperation) : Prop where
  locks : m.lockManager.WellFormed
  waits : Acyclic m.lockManager.WaitsFor
  known : ∀ t ∈ m.transactions, t < m.nextTransactionId
  isolation : ∀ t tx, m.transactions.lookup t = some tx →
    IsolationLevel.readCommitted ≤ tx.isolationLevel
  recorded : ∀ e ∈ log, e.transactionId < m.nextTransactionId
  covered : ∀ e ∈ log, e.Covered
  held : ∀ e ∈ log, m.lockManager.Holds e.transactionId e.key e.type ∨ m.Gone e.transactionId
  gone : ∀ t u, PrecedenceGraph log t u → m.Gone t
  acyclic : Acyclic (PrecedenceGraph log)
  released : ∀ a b, [a, b].Sublist log → a.transactionId ≠ b.transactionId → a.Conflict b →
    b.HoldsNoLock a.transactionId

theorem twoPhase_create : TwoPhase create [] := by
  refine ⟨DefaultLockManager.wellFormed_create, DefaultLockManager.acyclic_create, ?_, ?_,
    ?_, ?_, ?_, ?_, ?_, ?_⟩
  · intro t ht
    exact absurd ht (AList.notMem_empty t)
  · intro t tx htx
    rw [show create.transactions = ∅ from rfl, AList.lookup_empty] at htx
    cases htx
  · exact fun e he => absurd he List.not_mem_nil
  · exact fun e he => absurd he List.not_mem_nil
  · exact fun e he => absurd he List.not_mem_nil
  · rintro t u ⟨-, a, b, hpair, -⟩
    exact absurd (hpair.subset List.mem_cons_self) List.not_mem_nil
  · intro t hcycle
    obtain ⟨u, ⟨-, a, b, hpair, -⟩, -⟩ := TransGen.head'_iff.mp hcycle
    exact absurd (hpair.subset List.mem_cons_self) List.not_mem_nil
  · intro a b hpair
    exact absurd (hpair.subset List.mem_cons_self) List.not_mem_nil

section

variable {m m' : DefaultTransactionManager} {log : List RecordedOperation}

/-- What is known of the log carries over to a manager with the same transactions gone. -/
theorem TwoPhase.transfer (h : TwoPhase m log) (hlocks : m'.lockManager.WellFormed)
    (hwaits : Acyclic m'.lockManager.WaitsFor)
    (hknown : ∀ t ∈ m'.transactions, t < m'.nextTransactionId)
    (hisolation : ∀ t tx, m'.transactions.lookup t = some tx →
      IsolationLevel.readCommitted ≤ tx.isolationLevel)
    (hnext : m.nextTransactionId ≤ m'.nextTransactionId) (hgone : ∀ t, m.Gone t → m'.Gone t)
    (hheld : ∀ t key type, t < m.nextTransactionId → m.lockManager.Holds t key type →
      m'.lockManager.Holds t key type ∨ m'.Gone t) : TwoPhase m' log where
  locks := hlocks
  waits := hwaits
  known := hknown
  isolation := hisolation
  recorded e he := lt_of_lt_of_le (h.recorded e he) hnext
  covered := h.covered
  held e he := by
    rcases h.held e he with hholds | hold
    · exact hheld _ _ _ (h.recorded e he) hholds
    · exact Or.inr (hgone _ hold)
  gone t u htu := hgone t (h.gone t u htu)
  acyclic := h.acyclic
  released := h.released

/-- No transaction is new after settling. -/
theorem Settles.mem_transactions (hsettles : Settles m m') {t : TransactionId}
    (ht : t ∈ m'.transactions) : t ∈ m.transactions := by
  obtain ⟨tx', htx'⟩ := exists_of_mem ht
  obtain ⟨tx, htx, -⟩ := hsettles.transactions t tx' htx'
  exact mem_of_lookup htx

/-- No lock is new after settling. -/
theorem Settles.lookup_locks (hsettles : Settles m m') (h : m.lockManager.WellFormed) {id : LockId}
    {l : LockInfo} (hl : m'.lockManager.locks.lookup id = some l) :
    m.lockManager.locks.lookup id = some l := by
  rcases hsettles.locks with hsame | ⟨i, ended, hreleased, -⟩
  · rwa [hsame] at hl
  · rw [hreleased] at hl
    exact (h.lookup_releaseAllLocks.mp hl).2

/-- A transaction that is over stays over. -/
theorem Gone.settles {t : TransactionId} (ht : m.Gone t) (hsettles : Settles m m')
    (h : m.lockManager.WellFormed) : m'.Gone t where
  known := hsettles.next ▸ ht.known
  erased hin := ht.erased (hsettles.mem_transactions hin)
  unlocked id l hl := ht.unlocked id l (hsettles.lookup_locks h hl)

/-- Settling releases a lock only with the end of its transaction. -/
theorem Settles.holds_or_gone (hsettles : Settles m m') (h : m.lockManager.WellFormed)
    {t : TransactionId} (ht : t < m.nextTransactionId) {key : MultiLevelKey} {type : OperationType}
    (hholds : m.lockManager.Holds t key type) :
    m'.lockManager.Holds t key type ∨ m'.Gone t := by
  rcases hsettles.locks with hsame | ⟨i, ended, hreleased, hended⟩
  · rw [hsame]
    exact Or.inl hholds
  · by_cases heq : t = ended
    · -- this is the transaction that ended
      subst heq
      refine Or.inr ⟨hsettles.next ▸ ht, hended, ?_⟩
      intro id l hl
      rw [hreleased] at hl
      exact (h.lookup_releaseAllLocks.mp hl).1
    · obtain ⟨id, l, hl, htx, hrest⟩ := hholds
      rw [hreleased]
      exact Or.inl ⟨id, l, h.lookup_releaseAllLocks.mpr ⟨htx.trans_ne heq, hl⟩, htx, hrest⟩

/-- **Ending transactions keeps the invariant.** -/
theorem TwoPhase.settles (h : TwoPhase m log) (hsettles : Settles m m') : TwoPhase m' log := by
  have hlocks : m'.lockManager.WellFormed ∧ Acyclic m'.lockManager.WaitsFor := by
    rcases hsettles.locks with hsame | ⟨i, ended, hreleased, -⟩
    · rw [hsame]
      exact ⟨h.locks, h.waits⟩
    · rw [hreleased]
      exact ⟨h.locks.releaseAllLocks i ended, DefaultLockManager.acyclic_releaseAllLocks h.waits ended⟩
  refine h.transfer hlocks.1 hlocks.2 ?_ ?_ hsettles.next.ge ?_ ?_
  · intro t ht
    rw [hsettles.next]
    exact h.known t (hsettles.mem_transactions ht)
  · intro t tx' htx'
    obtain ⟨tx, htx, hisolation⟩ := hsettles.transactions t tx' htx'
    rw [hisolation]
    exact h.isolation t tx htx
  · exact fun t ht => ht.settles hsettles h.locks
  · exact fun t key type ht hholds => hsettles.holds_or_gone h.locks ht hholds

theorem TwoPhase.beginTransaction (h : TwoPhase m log) {isolation : IsolationLevel}
    (hisolation : IsolationLevel.readCommitted ≤ isolation) (now : TimePoint) :
    TwoPhase (m.beginTransaction isolation now).2 log := by
  rw [DefaultTransactionManager.beginTransaction]
  split_ifs with hrunning
  · exact h
  · refine h.transfer h.locks h.waits ?_ ?_ (Nat.le_succ _) ?_ ?_
    · intro t ht
      rcases (AList.mem_insert _).mp ht with rfl | ht
      · exact Nat.lt_succ_self _
      · exact Nat.lt_succ_of_lt (h.known t ht)
    · intro t tx htx
      rcases lookup_insert_cases htx with ⟨-, rfl⟩ | ⟨-, hold⟩
      · exact hisolation
      · exact h.isolation t tx hold
    · intro t ht
      refine ⟨Nat.lt_succ_of_lt ht.known, ?_, ht.unlocked⟩
      intro hin
      rcases (AList.mem_insert _).mp hin with rfl | hin
      · exact absurd ht.known (lt_irrefl _)
      · exact ht.erased hin
    · exact fun t key type _ hholds => Or.inl hholds

/-- A stretch of `acquire_lock` for a transaction that is not over. -/
theorem TwoPhase.stretch (h : TwoPhase m log) {c : LockCall} {i : IterationOrder}
    {result : Result LockId ⊕ LockCall} {lockManager : DefaultLockManager}
    (hlive : c.request.transactionId ∈ m.transactions)
    (hstep : c.Stretch m.lockManager i result lockManager) :
    TwoPhase { m with lockManager := lockManager } log := by
  refine h.transfer (h.locks.stretch hstep)
    (DefaultLockManager.acyclic_of_stretch h.waits hstep) h.known h.isolation (le_refl _) ?_ ?_
  · intro t ht
    refine ⟨ht.known, ht.erased, ?_⟩
    intro id l hl
    rcases DefaultLockManager.lookup_stretch hstep hl with hown | hold
    · rintro rfl
      exact ht.erased (hown ▸ hlive)
    · exact ht.unlocked id l hold
  · exact fun t key type _ hholds => Or.inl (h.locks.holds_of_stretch hstep hholds)

/-- An operation that conflicts with a recorded one finds its transaction gone. -/
theorem TwoPhase.gone_of_conflict (h : TwoPhase m log) {a e : RecordedOperation} (ha : a ∈ log)
    (hholds : m.lockManager.Holds e.transactionId e.key e.type)
    (hne : a.transactionId ≠ e.transactionId) (hconflict : a.Conflict e) :
    m.Gone a.transactionId := by
  rcases h.held a ha with hheld | hgone
  · rw [hconflict.1] at hheld
    exact absurd hconflict.2 (h.locks.not_isUpdate hheld hholds hne)
  · exact hgone

/-- **Recording an operation under its lock keeps the invariant.** -/
theorem TwoPhase.concat (h : TwoPhase m log) {e : RecordedOperation}
    (hlive : e.transactionId ∈ m.transactions)
    (hholds : m.lockManager.Holds e.transactionId e.key e.type)
    (hlocks : e.locks = m.lockManager.locks) : TwoPhase m (log ++ [e]) where
  locks := h.locks
  waits := h.waits
  known := h.known
  isolation := h.isolation
  recorded a ha := by
    rcases List.mem_append.mp ha with ha | ha
    · exact h.recorded a ha
    · rw [List.mem_singleton.mp ha]
      exact h.known _ hlive
  covered a ha := by
    rcases List.mem_append.mp ha with ha | ha
    · exact h.covered a ha
    · obtain ⟨id, l, hl, hrest⟩ := hholds
      rw [List.mem_singleton.mp ha]
      exact ⟨id, l, hlocks ▸ hl, hrest⟩
  held a ha := by
    rcases List.mem_append.mp ha with ha | ha
    · exact h.held a ha
    · rw [List.mem_singleton.mp ha]
      exact Or.inl hholds
  gone t u htu := by
    rcases precedes_concat htu with hold | ⟨rfl, hne, a, ha, rfl, hconflict⟩
    · exact h.gone t u hold
    · exact h.gone_of_conflict ha hholds hne hconflict
  acyclic := by
    -- a live transaction precedes nobody yet, so the new edges end in a sink
    apply acyclic_precedes_concat _ h.acyclic
    intro u hedge
    exact (h.gone _ u hedge).erased hlive
  released a b hpair hne hconflict := by
    rcases pair_sublist_concat.mp hpair with hold | ⟨ha, rfl⟩
    · exact h.released a b hold hne hconflict
    · intro id l hl
      rw [hlocks] at hl
      exact (h.gone_of_conflict ha hholds hne hconflict).unlocked id l hl

end

/-! ## Data operations in progress -/

/-- A call of a live transaction asks for the lock its operation needs, or has it. -/
def CallInv (m : DefaultTransactionManager) (c : DataCall) : Prop :=
  c.transactionId ∈ m.transactions ∧
    match c.phase with
    | .acquiring call => ∃ type, call.request = ⟨c.transactionId, c.key, type⟩ ∧
        (c.operation.type.IsUpdate → type = .exclusive)
    | .recording _ => m.lockManager.Holds c.transactionId c.key c.operation.type

section

variable {m : DefaultTransactionManager} {c : DataCall}

theorem exclusive_of_isUpdate {operation : DataOperation} {isolation : IsolationLevel}
    {type : LockType} (htype : operation.lockType isolation = some type)
    (hupdate : operation.type.IsUpdate) : type = .exclusive := by
  cases operation with
  | read => rcases hupdate with h | h <;> cases h
  | write value => exact (Option.some.inj htype).symm
  | remove => exact (Option.some.inj htype).symm
  | lock type => rcases hupdate with h | h <;> cases h

theorem lockType_ne_none {operation : DataOperation} {isolation : IsolationLevel}
    (hisolation : IsolationLevel.readCommitted ≤ isolation) :
    operation.lockType isolation ≠ none := by
  cases operation with
  | read =>
      rw [DataOperation.lockType, if_pos hisolation]
      exact Option.some_ne_none _
  | write value => exact Option.some_ne_none _
  | remove => exact Option.some_ne_none _
  | lock type => exact Option.some_ne_none _

theorem callInv_startCall {log : List RecordedOperation} (h : TwoPhase m log) {now : TimePoint}
    {id : TransactionId} {key : MultiLevelKey} {operation : DataOperation}
    (hc : m.startCall now id key operation = .ok c) : m.CallInv c := by
  obtain ⟨tx, htx, -, ⟨hnone, -⟩ | ⟨type, htype, rfl⟩⟩ := startCall_ok hc
  · exact absurd hnone (lockType_ne_none (h.isolation id tx htx))
  · exact ⟨mem_of_lookup htx, type, rfl, exclusive_of_isUpdate htype⟩

/-- Calls are not disturbed by the stretches of others. -/
theorem CallInv.stretch (hc : m.CallInv c) (hlocks : m.lockManager.WellFormed) {call : LockCall}
    {i : IterationOrder} {result : Result LockId ⊕ LockCall} {lockManager : DefaultLockManager}
    (hstep : call.Stretch m.lockManager i result lockManager) :
    CallInv { m with lockManager := lockManager } c := by
  obtain ⟨hlive, hphase⟩ := hc
  refine ⟨hlive, ?_⟩
  rcases hc : c.phase with call' | lock
  · rw [hc] at hphase
    exact hphase
  · rw [hc] at hphase
    exact hlocks.holds_of_stretch hstep hphase

/-- Calls are not disturbed by changes of records. -/
theorem CallInv.setTransaction (hc : m.CallInv c) (id : TransactionId)
    (tx : DistributedTransaction) : (m.setTransaction id tx).CallInv c :=
  ⟨(AList.mem_insert _).mpr (Or.inr hc.1), hc.2⟩

theorem CallInv.recordOperation (hc : m.CallInv c) (clock : ℕ → TimePoint) (recorded : DataCall)
    (lock : Option LockId) : (m.recordOperation clock recorded lock).2.CallInv c := by
  rw [DefaultTransactionManager.recordOperation]
  rcases m.transactions.lookup recorded.transactionId with _ | tx
  · exact hc
  · exact hc.setTransaction _ _

end

end DefaultTransactionManager

end QcDatabase
