/-
# What becomes of expired transactions

`cleanup_expired_transactions` collects the transactions that have expired and aborts
each of them.  But `abort_transaction` validates the transaction first, and
`validate_transaction` refuses one that has expired.  So a transaction is cleaned up
only if the clock was set back between the two looks at it (`cleansUp_iff`); by a clock
that is not, nothing is done (`cleanupExpiredTransactions_eq_self`).
-/
import QcDatabase.Transaction.SystemInvariant

open UnorderedMap

namespace QcDatabase

namespace DefaultTransactionManager

variable {m : DefaultTransactionManager} {i : IterationOrder} {id j : TransactionId}
  {tx : DistributedTransaction} {now : TimePoint} {lockId : LockId} {l : LockInfo}

/-- There is a record of the transaction, and at clock reading `now` it has expired. -/
def Expired (m : DefaultTransactionManager) (now : TimePoint) (id : TransactionId) : Prop :=
  ∃ tx, m.transactions.lookup id = some tx ∧ tx.isExpired now = true

theorem any_isExpired_iff :
    ((m.transactions.lookup id).any fun tx => tx.isExpired now) = true ↔ m.Expired now id := by
  rw [Expired]
  rcases m.transactions.lookup id with _ | tx
  · simp
  · simp

instance (m : DefaultTransactionManager) (now : TimePoint) (id : TransactionId) :
    Decidable (m.Expired now id) :=
  decidable_of_iff _ any_isExpired_iff

/-- `validate_transaction` returns `OK` at clock reading `now`. -/
def Valid (m : DefaultTransactionManager) (now : TimePoint) (id : TransactionId) : Prop :=
  ∃ tx, m.validateTransaction now id = .ok tx

theorem not_valid_of_expired (h : m.Expired now id) : ¬ m.Valid now id := by
  rintro ⟨tx, hvalid⟩
  obtain ⟨htx, hlive⟩ := validateTransaction_eq_ok.mp hvalid
  obtain ⟨tx', htx', hexpired⟩ := h
  obtain rfl := Option.some.inj (htx.symm.trans htx')
  rw [hlive] at hexpired
  cases hexpired

theorem expired_or_valid (h : m.transactions.lookup id = some tx) (now : TimePoint) :
    m.Expired now id ∨ m.Valid now id := by
  rcases hexpired : tx.isExpired now with _ | _
  · exact Or.inr ⟨tx, validateTransaction_eq_ok.mpr ⟨h, hexpired⟩⟩
  · exact Or.inl ⟨tx, h, hexpired⟩

/-- What has expired stays so. -/
theorem Expired.mono (h : m.Expired now id) {later : TimePoint} (hle : now ≤ later) :
    m.Expired later id := by
  obtain ⟨tx, htx, hexpired⟩ := h
  refine ⟨tx, htx, ?_⟩
  rw [DistributedTransaction.isExpired, decide_eq_true_eq] at hexpired ⊢
  exact lt_of_lt_of_le hexpired (Int.sub_le_sub_right hle _)

/-! ## Aborting transactions one after the other -/

section

variable {clock : ℕ → TimePoint}

theorem abortTransaction_of_valid (h : m.Valid (clock 0) id) :
    (m.abortTransaction i clock id).2 = (m.releaseAllLocks i id).eraseTransaction id := by
  obtain ⟨tx, hvalid⟩ := h
  rw [abortTransaction_eq, hvalid]

theorem abortTransaction_of_not_valid (h : ¬ m.Valid (clock 0) id) :
    (m.abortTransaction i clock id).2 = m := by
  rw [abortTransaction_eq]
  rcases hvalid : m.validateTransaction (clock 0) id with failure | tx
  · rfl
  · exact absurd ⟨tx, hvalid⟩ h

/-- The records after an abort: that of a valid transaction is gone. -/
theorem lookup_abortTransaction :
    (m.abortTransaction i clock id).2.transactions.lookup j = some tx ↔
      m.transactions.lookup j = some tx ∧ ¬ (j = id ∧ m.Valid (clock 0) id) := by
  by_cases hvalid : m.Valid (clock 0) id
  · rw [abortTransaction_of_valid hvalid, lookup_eraseTransaction]
    by_cases hj : j = id
    · simp [hj, hvalid]
    · rw [if_neg hj]
      exact (and_iff_left fun h => hj h.1).symm
  · rw [abortTransaction_of_not_valid hvalid]
    simp [hvalid]

/-- The locks after an abort: those of a valid transaction are gone. -/
theorem lookup_locks_abortTransaction (h : m.lockManager.WellFormed) :
    (m.abortTransaction i clock id).2.lockManager.locks.lookup lockId = some l ↔
      m.lockManager.locks.lookup lockId = some l ∧
        ¬ (l.transactionId = id ∧ m.Valid (clock 0) id) := by
  by_cases hvalid : m.Valid (clock 0) id
  · rw [abortTransaction_of_valid hvalid]
    refine h.lookup_releaseAllLocks.trans ?_
    simp [hvalid, and_comm]
  · rw [abortTransaction_of_not_valid hvalid]
    simp [hvalid]

theorem wellFormed_abortTransaction (h : m.lockManager.WellFormed) :
    (m.abortTransaction i clock id).2.lockManager.WellFormed := by
  by_cases hvalid : m.Valid (clock 0) id
  · rw [abortTransaction_of_valid hvalid]
    exact h.releaseAllLocks i id
  · rw [abortTransaction_of_not_valid hvalid]
    exact h

end

/-- An abort leaves the other transactions as they are. -/
theorem valid_abortTransaction {clock : TransactionId → ℕ → TimePoint} :
    (m.abortTransaction i (clock id) id).2.Valid (clock j 0) j ↔
      m.Valid (clock j 0) j ∧ j ≠ id := by
  simp only [Valid, validateTransaction_eq_ok, lookup_abortTransaction]
  constructor
  · rintro ⟨tx, ⟨htx, hnot⟩, hlive⟩
    refine ⟨⟨tx, htx, hlive⟩, ?_⟩
    rintro rfl
    exact hnot ⟨rfl, tx, htx, hlive⟩
  · rintro ⟨⟨tx, htx, hlive⟩, hne⟩
    exact ⟨tx, ⟨htx, fun h => hne h.1⟩, hlive⟩

/-- The second loop of `cleanup_expired_transactions`. -/
def abortTransactions (i : IterationOrder) (clock : TransactionId → ℕ → TimePoint)
    (m : DefaultTransactionManager) (ids : List TransactionId) : DefaultTransactionManager :=
  ids.foldl (fun m id => (m.abortTransaction i (clock id) id).2) m

variable {clock : TransactionId → ℕ → TimePoint} {ids : List TransactionId}

theorem lookup_abortTransactions :
    (abortTransactions i clock m ids).transactions.lookup j = some tx ↔
      m.transactions.lookup j = some tx ∧ ¬ (j ∈ ids ∧ m.Valid (clock j 0) j) := by
  induction ids generalizing m with
  | nil => simp [abortTransactions]
  | cons id ids ih =>
      rw [abortTransactions, List.foldl_cons]
      refine ih.trans ?_
      rw [lookup_abortTransaction, valid_abortTransaction, List.mem_cons]
      by_cases hj : j = id
      · subst hj
        simp
      · simp [hj]

theorem lookup_locks_abortTransactions (h : m.lockManager.WellFormed) :
    (abortTransactions i clock m ids).lockManager.locks.lookup lockId = some l ↔
      m.lockManager.locks.lookup lockId = some l ∧
        ¬ (l.transactionId ∈ ids ∧ m.Valid (clock l.transactionId 0) l.transactionId) := by
  induction ids generalizing m with
  | nil => simp [abortTransactions]
  | cons id ids ih =>
      rw [abortTransactions, List.foldl_cons]
      refine (ih (wellFormed_abortTransaction h)).trans ?_
      rw [lookup_locks_abortTransaction h, valid_abortTransaction, List.mem_cons]
      by_cases hid : l.transactionId = id
      · subst hid
        simp
      · simp [hid]

/-! ## The cleanup -/

variable {seen : TransactionId → TimePoint}

/-- The cleanup aborts the transactions that it sees expired. -/
theorem exists_cleanupExpiredTransactions_eq (m : DefaultTransactionManager) (i : IterationOrder)
    (seen : TransactionId → TimePoint) (clock : TransactionId → ℕ → TimePoint) :
    ∃ ids, (∀ id, id ∈ ids ↔ m.Expired (seen id) id) ∧
      m.cleanupExpiredTransactions i seen clock = abortTransactions i clock m ids := by
  refine ⟨_, fun id => ?_, rfl⟩
  rw [List.mem_filter, IterationOrder.mem_order, any_isExpired_iff]
  refine and_iff_right_of_imp ?_
  rintro ⟨tx, htx, -⟩
  exact AList.mem_keys.mp (mem_of_lookup htx)

/-- No transaction that had expired at clock reading `now` is left, nor a lock of it. -/
def CleansUp (m : DefaultTransactionManager) (i : IterationOrder) (now : TimePoint)
    (seen : TransactionId → TimePoint) (clock : TransactionId → ℕ → TimePoint) : Prop :=
  ∀ id, m.Expired now id →
    id ∉ (m.cleanupExpiredTransactions i seen clock).transactions ∧
      ∀ lockId l,
        (m.cleanupExpiredTransactions i seen clock).lockManager.locks.lookup lockId = some l →
          l.transactionId ≠ id

/-- **When expired transactions are cleaned up.** -/
theorem cleansUp_iff (h : m.lockManager.WellFormed) (i : IterationOrder) (now : TimePoint)
    (seen : TransactionId → TimePoint) (clock : TransactionId → ℕ → TimePoint) :
    m.CleansUp i now seen clock ↔
      ∀ id, m.Expired now id → m.Expired (seen id) id ∧ ¬ m.Expired (clock id 0) id := by
  obtain ⟨ids, hids, hcleanup⟩ := exists_cleanupExpiredTransactions_eq m i seen clock
  rw [CleansUp, hcleanup]
  refine forall₂_congr fun id hexpired => ?_
  have htx := hexpired
  obtain ⟨tx, htx, -⟩ := htx
  constructor
  · rintro ⟨hgone, -⟩
    have haborted : id ∈ ids ∧ m.Valid (clock id 0) id := by
      by_contra hnot
      exact hgone (mem_of_lookup (lookup_abortTransactions.mpr ⟨htx, hnot⟩))
    exact ⟨(hids id).mp haborted.1, fun hlate => not_valid_of_expired hlate haborted.2⟩
  · rintro ⟨hseen, hlive⟩
    have hvalid := (expired_or_valid htx (clock id 0)).resolve_left hlive
    constructor
    · intro hmem
      obtain ⟨tx', htx'⟩ := exists_of_mem hmem
      exact (lookup_abortTransactions.mp htx').2 ⟨(hids id).mpr hseen, hvalid⟩
    · rintro lockId l hl rfl
      exact ((lookup_locks_abortTransactions h).mp hl).2 ⟨(hids _).mpr hseen, hvalid⟩

/-- **Nothing is cleaned up** unless the clock is set back. -/
theorem cleanupExpiredTransactions_eq_self (hclock : ∀ id, seen id ≤ clock id 0) :
    m.cleanupExpiredTransactions i seen clock = m := by
  obtain ⟨ids, hids, hcleanup⟩ := exists_cleanupExpiredTransactions_eq m i seen clock
  rw [hcleanup]
  have hexpired : ∀ id ∈ ids, m.Expired (clock id 0) id :=
    fun id hid => ((hids id).mp hid).mono (hclock id)
  clear hids hcleanup
  induction ids with
  | nil => rfl
  | cons id ids ih =>
      rw [List.forall_mem_cons] at hexpired
      rw [abortTransactions, List.foldl_cons,
        abortTransaction_of_not_valid (not_valid_of_expired hexpired.1)]
      exact ih hexpired.2

/-- A manager with one transaction, which holds an exclusive lock. -/
def sampleHolding : DefaultTransactionManager :=
  (TransactionSystem.create.run [.start, .beginTransaction .serializable 0,
    .call 0 1 ⟨[97], []⟩ (.lock .exclusive), .acquire 0 (momentAt 0), .record 0 fun _ => 0]).manager

/-- The condition on `sampleHolding`: the clock is at 40 seconds, then at 20 again. -/
theorem cleansUp_sampleHolding :
    sampleHolding.Expired 40000000000 1 ∧
      sampleHolding.CleansUp IterationOrder.listed 40000000000 (fun _ => 40000000000)
        (fun _ _ => 20000000000) := by
  have hwell : sampleHolding.lockManager.WellFormed := (SystemInv.run _).manager.locks
  refine ⟨by decide +kernel, (cleansUp_iff hwell _ _ _ _).mpr fun id hexpired => ⟨hexpired, ?_⟩⟩
  have hid : id = 1 := by
    obtain ⟨tx, htx, -⟩ := hexpired
    have hmem : id ∈ sampleHolding.transactions.keys := AList.mem_keys.mp (mem_of_lookup htx)
    rw [show sampleHolding.transactions.keys = [1] by decide +kernel] at hmem
    exact List.mem_singleton.mp hmem
  rw [hid]
  decide +kernel

/-- With a clock that stands at 40 seconds, the transaction and its lock are still there. -/
theorem not_cleansUp_sampleHolding :
    let cleaned := sampleHolding.cleanupExpiredTransactions IterationOrder.listed
      (fun _ => 40000000000) (fun _ _ => 40000000000)
    sampleHolding.Expired 40000000000 1 ∧ 1 ∈ cleaned.transactions ∧
      (cleaned.lockManager.locks.lookup "lock_1").map LockInfo.transactionId = some 1 ∧
      ¬ sampleHolding.CleansUp IterationOrder.listed 40000000000 (fun _ => 40000000000)
        (fun _ _ => 40000000000) := by
  have hexpired : sampleHolding.Expired 40000000000 1 := by decide +kernel
  have hleft : 1 ∈ (sampleHolding.cleanupExpiredTransactions IterationOrder.listed
      (fun _ => 40000000000) (fun _ _ => 40000000000)).transactions := by decide +kernel
  exact ⟨hexpired, hleft, by decide +kernel, fun h => (h 1 hexpired).1 hleft⟩

end DefaultTransactionManager

end QcDatabase
