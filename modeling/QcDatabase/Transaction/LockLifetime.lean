/-
# Locks and the transactions that hold them

A lock should end with its transaction (`LocksOwned`).  There are three ways in
which one outlives it: a commit that a participant refused erases the record and
releases nothing, a `COMMIT` or `ABORT` message ends the transaction and releases
nothing, and a data operation gets a lock for a transaction that a message has
ended.  `EndsUnlocked` excludes exactly these steps, and the runs without them
are those in which no lock outlives its transaction
(`locksOwned_iff_endsUnlocked`).
-/
import QcDatabase.Transaction.SystemInvariant
import QcDatabase.Transaction.TwoPhaseCommit

open StepRun UnorderedMap

namespace QcDatabase

/-- The transaction has not ended. -/
def DistributedTransaction.IsOpen (tx : DistributedTransaction) : Prop :=
  tx.state ≠ .committed ∧ tx.state ≠ .aborted

/-- The transaction holds no lock. -/
def DefaultLockManager.HoldsNoLock (m : DefaultLockManager) (tx : TransactionId) : Prop :=
  ∀ id l, m.locks.lookup id = some l → l.transactionId ≠ tx

namespace DefaultTransactionManager

/-- Every lock belongs to a transaction that is there and has not ended. -/
def LocksOwned (m : DefaultTransactionManager) : Prop :=
  ∀ id l, m.lockManager.locks.lookup id = some l →
    ∃ tx, m.transactions.lookup l.transactionId = some tx ∧ tx.IsOpen

/-! ## One lemma for each kind of change -/

section

variable {m m' : DefaultTransactionManager} {id : TransactionId} {tx : DistributedTransaction}

/-- Fewer locks and the same records. -/
theorem LocksOwned.of_subset (h : m.LocksOwned)
    (hlocks : ∀ lock l, m'.lockManager.locks.lookup lock = some l →
      m.lockManager.locks.lookup lock = some l)
    (hrecords : m'.transactions = m.transactions) : m'.LocksOwned := by
  intro lock l hl
  rw [hrecords]
  exact h lock l (hlocks lock l hl)

/-- An open record is put in place. -/
theorem LocksOwned.setTransaction (h : m.LocksOwned) (htx : tx.IsOpen) :
    (m.setTransaction id tx).LocksOwned := by
  intro lock l hl
  obtain ⟨old, hold, hopen⟩ := h lock l hl
  rw [lookup_setTransaction]
  by_cases hid : l.transactionId = id
  · rw [if_pos hid]
    exact ⟨tx, rfl, htx⟩
  · rw [if_neg hid]
    exact ⟨old, hold, hopen⟩

/-- A record is erased: its transaction must not hold a lock. -/
theorem LocksOwned.eraseTransaction_iff (h : m.LocksOwned) :
    (m.eraseTransaction id).LocksOwned ↔ m.lockManager.HoldsNoLock id := by
  constructor
  · intro herased lock l hl hid
    obtain ⟨tx, htx, -⟩ := herased lock l hl
    rw [lookup_eraseTransaction, if_pos hid] at htx
    cases htx
  · intro hfree lock l hl
    rw [lookup_eraseTransaction, if_neg (hfree lock l hl)]
    exact h lock l hl

/-- A record is erased after its locks were released. -/
theorem LocksOwned.finish (h : m.LocksOwned) (hlocks : m.lockManager.WellFormed)
    (i : IterationOrder) : ((m.releaseAllLocks i id).eraseTransaction id).LocksOwned := by
  have hreleased : (m.releaseAllLocks i id).LocksOwned :=
    h.of_subset (fun lock l hl => (hlocks.lookup_releaseAllLocks.mp hl).2) rfl
  rw [hreleased.eraseTransaction_iff]
  intro lock l hl
  exact (hlocks.lookup_releaseAllLocks.mp hl).1

/-! ## The functions -/

theorem LocksOwned.beginTransaction (h : m.LocksOwned) (isolation : IsolationLevel)
    (now : TimePoint) : (m.beginTransaction isolation now).2.LocksOwned := by
  rw [DefaultTransactionManager.beginTransaction]
  split_ifs with hrunning
  · exact h
  · have hnew : DistributedTransaction.IsOpen ⟨m.nextTransactionId, [], .active, isolation, [], [],
        now, now, m.defaultTimeout, ∅⟩ := by
      constructor <;> exact TransactionState.noConfusion
    exact h.setTransaction hnew

theorem LocksOwned.abortTransaction (h : m.LocksOwned) (hlocks : m.lockManager.WellFormed)
    (i : IterationOrder) (clock : ℕ → TimePoint) : (m.abortTransaction i clock id).2.LocksOwned := by
  rw [abortTransaction_eq]
  rcases m.validateTransaction (clock 0) id with failure | tx
  · exact h
  · exact h.finish hlocks i

theorem LocksOwned.prepare (h : m.LocksOwned) (clock : ℕ → TimePoint) :
    (m.prepare clock id).2.LocksOwned := by
  rw [DefaultTransactionManager.prepare]
  rcases m.validateTransaction (clock 0) id with failure | tx
  · exact h
  · dsimp only
    split_ifs with hactive
    · exact h
    · apply h.setTransaction
      constructor <;> exact TransactionState.noConfusion

/-- The locks are those of an open transaction after a commit that succeeds, and
after one that is refused if there were none. -/
theorem LocksOwned.commitTransaction_iff (h : m.LocksOwned) (hlocks : m.lockManager.WellFormed)
    {i : IterationOrder} {clock : ℕ → TimePoint} :
    (m.commitTransaction i clock id).2.LocksOwned ↔
      ∀ tx, m.transactions.lookup id = some tx → tx.Committable (clock 0) → tx.Refused →
        m.lockManager.HoldsNoLock id := by
  by_cases hcommittable : ∀ tx, m.transactions.lookup id = some tx → ¬ tx.Committable (clock 0)
  · obtain ⟨failure, hsame⟩ := commitTransaction_of_not_committable (i := i) hcommittable
    rw [hsame]
    refine iff_of_true h ?_
    intro tx htx hcommit
    exact absurd hcommit (hcommittable tx htx)
  · push Not at hcommittable
    obtain ⟨tx, htx, hcommit⟩ := hcommittable
    by_cases hrefused : tx.Refused
    · rw [commitTransaction_of_refused htx hcommit hrefused, h.eraseTransaction_iff]
      exact ⟨fun hfree _ _ _ _ => hfree, fun hfree => hfree tx htx hcommit hrefused⟩
    · rw [commitTransaction_of_not_refused htx hcommit hrefused]
      refine iff_of_true (h.finish hlocks i) ?_
      intro found hfound _ hfoundRefused
      obtain rfl := Option.some.inj (htx.symm.trans hfound)
      exact absurd hfoundRefused hrefused

theorem lockManager_handleTpcMessage (message : TpcMessage) :
    (m.handleTpcMessage message).2.lockManager = m.lockManager := by
  have hmodify : ∀ f, (m.modifyTransaction message.transactionId f).lockManager
      = m.lockManager := by
    intro f
    rw [modifyTransaction]
    rcases m.transactions.lookup message.transactionId with _ | tx <;> rfl
  rw [handleTpcMessage]
  cases message.type with
  | prepare => exact hmodify _
  | prepareOk => exact hmodify _
  | prepareAbort => exact hmodify _
  | commit => exact hmodify _
  | commitOk => rfl
  | abort => exact hmodify _
  | abortOk => rfl

/-- Which messages end a transaction. -/
theorem isOpen_assigns_iff {message : TpcMessage} {tx' : DistributedTransaction}
    (htx : tx.IsOpen) (hreceived : Received message id tx tx') :
    tx'.IsOpen ↔
      ¬ (message.transactionId = id ∧ (message.type = .commit ∨ message.type = .abort)) := by
  rw [DistributedTransaction.IsOpen, hreceived.state, TpcMessage.assigns]
  by_cases hid : message.transactionId = id
  · rw [if_pos hid]
    rcases htype : message.type with _ | _ | _ | _ | _ | _ | _ <;>
      simp [hid, htx.1, htx.2]
  · rw [if_neg hid]
    exact iff_of_true htx fun h => hid h.1

/-- A `COMMIT` or `ABORT` must find its transaction without a lock. -/
theorem LocksOwned.handleTpcMessage_iff (h : m.LocksOwned) (message : TpcMessage) :
    (m.handleTpcMessage message).2.LocksOwned ↔
      (message.type = .commit ∨ message.type = .abort →
        m.lockManager.HoldsNoLock message.transactionId) := by
  rw [LocksOwned, lockManager_handleTpcMessage]
  constructor
  · intro howned hends lock l hl hid
    obtain ⟨tx, htx, hopen⟩ := h lock l hl
    obtain ⟨tx', htx', hreceived⟩ := received_receive message htx
    obtain ⟨found, hfound, hfoundOpen⟩ := howned lock l hl
    obtain rfl := Option.some.inj (htx'.symm.trans hfound)
    exact (isOpen_assigns_iff hopen hreceived).mp hfoundOpen ⟨hid.symm, hends⟩
  · intro hfree lock l hl
    obtain ⟨tx, htx, hopen⟩ := h lock l hl
    obtain ⟨tx', htx', hreceived⟩ := received_receive message htx
    refine ⟨tx', htx', (isOpen_assigns_iff hopen hreceived).mpr ?_⟩
    rintro ⟨hid, hends⟩
    exact hfree hends lock l hl hid.symm

theorem LocksOwned.cleanupExpiredTransactions (h : m.LocksOwned) (hsound : m.Sound)
    (i : IterationOrder) (seen : TransactionId → TimePoint) (clock : TransactionId → ℕ → TimePoint) :
    (m.cleanupExpiredTransactions i seen clock).LocksOwned := by
  rw [DefaultTransactionManager.cleanupExpiredTransactions]
  refine (StepRun.invariant (fun m => Sound m ∧ LocksOwned m) ?_ ⟨hsound, h⟩ _).2
  rintro m id ⟨hm, howned⟩
  exact ⟨hm.settles (settles_abortTransaction i (clock id)),
    howned.abortTransaction hm.locks i (clock id)⟩

theorem LocksOwned.recordOperation (h : m.LocksOwned) (clock : ℕ → TimePoint) (c : DataCall)
    (lock : Option LockId) : (m.recordOperation clock c lock).2.LocksOwned := by
  intro id l hl
  rw [DefaultTransactionManager.recordOperation] at hl ⊢
  rcases hlookup : m.transactions.lookup c.transactionId with _ | tx
  · rw [hlookup] at hl
    exact h id l hl
  · rw [hlookup] at hl
    obtain ⟨old, hold, hopen⟩ := h id l hl
    dsimp only
    rw [lookup_setTransaction]
    by_cases hid : l.transactionId = c.transactionId
    · rw [hid, hlookup] at hold
      obtain rfl := Option.some.inj hold
      rw [if_pos hid]
      exact ⟨_, rfl, hopen⟩
    · rw [if_neg hid]
      exact ⟨old, hold, hopen⟩

end

end DefaultTransactionManager

namespace TransactionSystem

/-! ## Runs -/

/-- No transaction ends with locks in the step, and none that has ended gets one. -/
def EndsUnlocked (s : TransactionSystem) : TransactionAction → Prop
  | .commitTransaction _ clock id => s.calls = [] →
      ∀ tx, s.manager.transactions.lookup id = some tx → tx.Committable (clock 0) → tx.Refused →
        s.manager.lockManager.HoldsNoLock id
  | .handleTpcMessage message => s.calls = [] → message.type = .commit ∨ message.type = .abort →
      s.manager.lockManager.HoldsNoLock message.transactionId
  | .acquire n _ => ∀ c ∈ s.calls[n]?, ∀ call ∈ c.lockCall,
      call.Grantable s.manager.lockManager →
        ∀ tx, s.manager.transactions.lookup c.transactionId = some tx → tx.IsOpen
  | _ => True

section

variable {s : TransactionSystem}

/-- A function that runs only when there are no calls. -/
theorem locksOwned_exclusively_iff (h : s.manager.LocksOwned)
    {f : DefaultTransactionManager → DefaultTransactionManager} {P : Prop}
    (hf : (f s.manager).LocksOwned ↔ P) :
    (s.exclusively f).manager.LocksOwned ↔ (s.calls = [] → P) := by
  rcases s.exclusively_cases f with ⟨hnil, hafter⟩ | ⟨hcalls, hsame⟩
  · rw [hafter]
    exact hf.trans ⟨fun hP _ => hP, fun hP => hP hnil⟩
  · rw [hsame]
    exact iff_of_true h fun hnil => absurd hnil hcalls

theorem locksOwned_exclusively (h : s.manager.LocksOwned)
    {f : DefaultTransactionManager → DefaultTransactionManager}
    (hf : (f s.manager).LocksOwned) : (s.exclusively f).manager.LocksOwned :=
  (locksOwned_exclusively_iff h (iff_true_intro hf)).mpr fun _ => trivial

theorem locksOwned_enter (h : s.manager.LocksOwned) (now : TimePoint) (id : TransactionId)
    (key : MultiLevelKey) (operation : DataOperation) :
    (s.enter now id key operation).manager.LocksOwned := by
  rcases s.enter_cases now id key operation with hsame | ⟨c, -, -, hafter⟩
  · rw [hsame]
    exact h
  · rw [hafter]
    exact h

/-- A lock is granted to an open transaction, or not at all. -/
theorem locksOwned_acquire_iff (hinv : SystemInv s) (h : s.manager.LocksOwned) (n : ℕ)
    (moment : Moment) :
    (s.acquire n moment).manager.LocksOwned ↔ s.EndsUnlocked (.acquire n moment) := by
  rw [EndsUnlocked]
  rcases s.acquire_cases n moment with
    ⟨hnone, hsame⟩ | ⟨id, key, operation, call, calls, hn, hafter, -⟩
  · -- no call of `acquire_lock` in that place
    rw [hsame]
    refine iff_of_true h ?_
    intro c hc call hcall
    rw [hnone c hc] at hcall
    cases hcall
  · have hmem := List.mem_of_getElem? hn
    obtain ⟨tx, htx⟩ := exists_of_mem (hinv.live _ hmem)
    have hrequest : call.request.transactionId = id := hinv.requests _ hmem call rfl
    rw [hafter, hn]
    dsimp only at htx ⊢
    by_cases hgrant : call.Grantable s.manager.lockManager
    · obtain ⟨timeout, hadvance⟩ := call.advance_of_grantable hgrant moment
      rw [hadvance]
      dsimp only
      constructor
      -- the new lock is among those that the hypothesis is about
      · rintro howned c hc call' hcall - found hfound
        obtain rfl := Option.some.inj hc
        obtain rfl := Option.some.inj hcall
        obtain ⟨owner, howner, hopen⟩ := howned _ _ DefaultLockManager.lookup_grant_next
        rw [hrequest] at howner
        obtain rfl := Option.some.inj (howner.symm.trans hfound)
        exact hopen
      · intro hopen lock l hl
        rcases DefaultLockManager.lookup_grant hl with ⟨-, rfl⟩ | ⟨-, hold⟩
        · dsimp only
          rw [hrequest]
          exact ⟨tx, htx, hopen _ rfl call rfl hgrant tx htx⟩
        · exact h lock l hold
    · -- nothing is granted, so the locks are the same
      have hlocks := (call.advance_of_not_grantable hgrant moment).1
      refine iff_of_true (h.of_subset (fun lock l hl => hlocks ▸ hl) rfl) ?_
      intro c hc call' hcall hgrant'
      obtain rfl := Option.some.inj hc
      obtain rfl := Option.some.inj hcall
      exact absurd hgrant' hgrant

theorem locksOwned_record (h : s.manager.LocksOwned) (n : ℕ) (clock : ℕ → TimePoint) :
    (s.record n clock).manager.LocksOwned := by
  rcases s.record_cases n clock with ⟨-, hsame⟩ | ⟨_, _, _, lock, -, -, hafter⟩
  · rw [hsame]
    exact h
  · rw [hafter]
    exact h.recordOperation clock _ lock

/-- **Step lemma.**  The steps with `EndsUnlocked` are those that keep locks with
open transactions. -/
theorem locksOwned_step_iff (hinv : SystemInv s) (h : s.manager.LocksOwned)
    (action : TransactionAction) :
    (s.step action).manager.LocksOwned ↔ s.EndsUnlocked action := by
  cases action with
  | start =>
      rw [step]
      exact iff_of_true (locksOwned_exclusively h h) trivial
  | stop =>
      rw [step]
      exact iff_of_true (locksOwned_exclusively h h) trivial
  | setDefaultTimeout timeout =>
      rw [step]
      exact iff_of_true (locksOwned_exclusively h h) trivial
  | beginTransaction isolation now =>
      rw [step]
      exact iff_of_true (locksOwned_exclusively h (h.beginTransaction isolation now)) trivial
  | commitTransaction order clock id =>
      rw [step]
      exact locksOwned_exclusively_iff h (h.commitTransaction_iff hinv.manager.locks)
  | abortTransaction order clock id =>
      rw [step]
      exact iff_of_true
        (locksOwned_exclusively h (h.abortTransaction hinv.manager.locks order clock)) trivial
  | prepare clock id =>
      rw [step]
      exact iff_of_true (locksOwned_exclusively h (h.prepare clock)) trivial
  | handleTpcMessage message =>
      rw [step]
      exact locksOwned_exclusively_iff h (h.handleTpcMessage_iff message)
  | cleanupExpiredTransactions order seen clock =>
      rw [step]
      exact iff_of_true (locksOwned_exclusively h
        (h.cleanupExpiredTransactions hinv.manager order seen clock)) trivial
  | call now id key operation => exact iff_of_true (locksOwned_enter h now id key operation) trivial
  | acquire n moment => exact locksOwned_acquire_iff hinv h n moment
  | record n clock => exact iff_of_true (locksOwned_record h n clock) trivial
  | detectDeadlocks order =>
      rw [step]
      refine iff_of_true ?_ trivial
      split_ifs with hnone
      · exact h
      · exact h
  | resolveDeadlock order =>
      rw [step]
      refine iff_of_true ?_ trivial
      rcases s.deadlocks with _ | ⟨cycle, deadlocks⟩
      · exact h
      · refine h.of_subset ?_ rfl
        intro lock l hl
        dsimp only at hl
        rw [DefaultLockManager.resolveDeadlock] at hl
        rcases hvictim : cycle.max? with _ | victim
        · rw [hvictim] at hl
          exact hl
        · rw [hvictim] at hl
          exact (hinv.manager.locks.lookup_releaseAllLocks.mp hl).2

end

/-- **No lock outlives its transaction exactly in the runs without these steps**:
every lock belongs to an open transaction in every state of a run, iff no step of
the run ends a transaction with its locks or grants a lock to one that has ended. -/
theorem locksOwned_iff_endsUnlocked (actions : List TransactionAction) :
    (∀ before, before <+: actions → (create.run before).manager.LocksOwned) ↔
      Along step EndsUnlocked create actions := by
  apply forall_prefix_iff_along SystemInv (fun s => s.manager.LocksOwned)
  · exact fun s action hinv => hinv.step action
  · exact fun s action hinv h => locksOwned_step_iff hinv h action
  · exact SystemInv.create
  · intro lock l hl
    cases hl

/-- A transaction writes, its participant votes against it, and it is committed. -/
def sampleRefused : List TransactionAction :=
  [.start, .beginTransaction .readCommitted 0,
    .call 0 1 ⟨[97], []⟩ (.write (DataEntry.default 0)), .acquire 0 (momentAt 0),
    .record 0 fun _ => 0, .handleTpcMessage ⟨.prepareAbort, 1, [110], []⟩,
    .commitTransaction IterationOrder.listed (fun _ => 0) 1]

/-- **A lock that nobody will release**: the refused commit drops its transaction
with the lock held. -/
theorem not_locksOwned_sampleRefused : ¬ (create.run sampleRefused).manager.LocksOwned := by
  intro howned
  have hlock : (create.run sampleRefused).manager.lockManager.locks.lookup "lock_1"
      = some ⟨"lock_1", .exclusive, 1, ⟨[97], []⟩, 0, 5000⟩ := by decide +kernel
  have hgone : ((create.run sampleRefused).manager.transactions.lookup 1).isNone := by
    decide +kernel
  obtain ⟨tx, htx, -⟩ := howned _ _ hlock
  rw [htx] at hgone
  cases hgone

end TransactionSystem

end QcDatabase
