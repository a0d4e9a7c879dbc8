/-
# Incompatible locks are never held together

The invariant of the lock manager: the key index and the transaction index list
exactly the locks there are, the ids of locks come from the counter, and locks
of different transactions on one key are compatible.

A request is checked against the ids of its key in one stretch of
`acquire_lock`, and granted in the same stretch, so the check sees every lock
there is on the key at the moment of the grant.  `locks_mutuallyExclusive` is
the result, for every interleaving of the stretches of any number of calls with
releases.
-/
import QcDatabase.Transaction.LockManager

open UnorderedMap

namespace QcDatabase

/-! ## What a stretch of `acquire_lock` can do -/

/-- The outcomes of a stretch of the call `c` at the manager `m`. -/
inductive LockCall.Stretch (c : LockCall) (m : DefaultLockManager) (i : IterationOrder) :
    Result LockId ⊕ LockCall → DefaultLockManager → Prop where
  | granted (now : TimePoint) (timeout : Milliseconds)
      (hfree : m.firstConflict c.request (m.keyLocks.bucket c.request.key) = none) :
      Stretch c m i (.inl (.ok (generateLockId m.nextLockId))) (m.grant c.request now timeout)
  | refused (failure : Failure) (holder : TransactionId) :
      Stretch c m i (.inl (.error failure))
        ((m.addWait c.request.transactionId holder).dropWait c.request.transactionId holder)
  | waiting (existing : LockInfo) (deadline : TimePoint)
      (hnone : (m.addWait c.request.transactionId existing.transactionId).findCycleInWaitGraph i
        c.request.transactionId = []) :
      Stretch c m i (.inr ⟨c.request, .waiting existing deadline⟩)
        (m.addWait c.request.transactionId existing.transactionId)
  | timedOut (failure : Failure) (holder : TransactionId) :
      Stretch c m i (.inl (.error failure)) (m.dropWait c.request.transactionId holder)
  | retrying (timeout : Milliseconds) :
      Stretch c m i (.inr ⟨c.request, .entering timeout⟩) m

theorem LockCall.advance_stretch (c : LockCall) (m : DefaultLockManager) (w : Moment) :
    c.Stretch m w.order (c.advance m w).1 (c.advance m w).2 := by
  rw [LockCall.advance]
  rcases hphase : c.phase with timeout | ⟨existing, deadline⟩
  · dsimp only
    rw [DefaultLockManager.acquireLock]
    rcases hfirst : m.firstConflict c.request (m.keyLocks.bucket c.request.key) with _ | existing
    · exact Stretch.granted w.now timeout hfirst
    · dsimp only
      split_ifs with hcycle
      · exact Stretch.refused _ existing.transactionId
      · exact Stretch.waiting existing _ (not_not.mp hcycle)
  · dsimp only
    split_ifs with hlate
    · exact Stretch.timedOut _ (LockCall.holder m existing w.dangling)
    · exact Stretch.retrying _

/-- A call that goes on asks for the same lock. -/
theorem LockCall.Stretch.request_eq {c c' : LockCall} {m m' : DefaultLockManager}
    {i : IterationOrder} (hstep : c.Stretch m i (.inr c') m') : c'.request = c.request := by
  cases hstep with
  | waiting existing deadline hnone => rfl
  | retrying timeout => rfl

namespace DefaultLockManager

/-- Nothing in the scanned list stands in the way of a request that finds no conflict. -/
theorem compatible_of_firstConflict {m : DefaultLockManager} {r : LockRequest} {ids : List LockId}
    (h : m.firstConflict r ids = none) {id : LockId} (hid : id ∈ ids) {l : LockInfo}
    (hl : m.locks.lookup id = some l) (hne : l.transactionId ≠ r.transactionId) :
    isLockCompatible l.type r.type = true := by
  induction ids with
  | nil => exact absurd hid List.not_mem_nil
  | cons first ids ih =>
      rw [firstConflict] at h
      rcases List.mem_cons.mp hid with rfl | hid
      · rw [hl] at h
        dsimp only at h
        rw [if_neg hne] at h
        by_contra hcompatible
        rw [if_neg hcompatible] at h
        cases h
      · apply ih _ hid
        rcases hfirst : m.locks.lookup first with _ | existing
        · rw [hfirst] at h
          exact h
        · rw [hfirst] at h
          dsimp only at h
          split_ifs at h with hown hcompatible
          · exact h
          · exact h

/-! ## The invariant -/

/-- Locks of different transactions on one key are compatible, either way round. -/
def MutuallyExclusive (m : DefaultLockManager) : Prop :=
  ∀ id₁ id₂ l₁ l₂, m.locks.lookup id₁ = some l₁ → m.locks.lookup id₂ = some l₂ →
    l₁.key = l₂.key → l₁.transactionId ≠ l₂.transactionId →
      isLockCompatible l₁.type l₂.type = true ∧ isLockCompatible l₂.type l₁.type = true

/-- The invariant of the lock tables. -/
structure WellFormed (m : DefaultLockManager) : Prop where
  keyLocks : Indexes m.keyLocks m.locks LockInfo.key
  transactionLocks : Indexes m.transactionLocks m.locks LockInfo.transactionId
  fresh : ∀ id l, m.locks.lookup id = some l → ∃ n < m.nextLockId, id = generateLockId n
  exclusive : m.MutuallyExclusive

theorem wellFormed_create : create.WellFormed := by
  refine ⟨indexes_empty, indexes_empty, ?_, ?_⟩
  · intro id l hl
    rw [show create.locks = ∅ from rfl, AList.lookup_empty] at hl
    cases hl
  · intro id₁ id₂ l₁ l₂ hl₁
    rw [show create.locks = ∅ from rfl, AList.lookup_empty] at hl₁
    cases hl₁

/-- The invariant does not speak of the wait graph. -/
theorem WellFormed.of_waitGraph {m : DefaultLockManager} (h : m.WellFormed)
    (g : UnorderedMap TransactionId (List TransactionId)) :
    { m with waitGraph := g }.WellFormed :=
  ⟨h.keyLocks, h.transactionLocks, h.fresh, h.exclusive⟩

/-! ## Grants -/

section

variable {m : DefaultLockManager} {r : LockRequest} {now : TimePoint} {timeout : Milliseconds}

/-- The next id belongs to no lock yet. -/
theorem WellFormed.lookup_next (h : m.WellFormed) :
    m.locks.lookup (generateLockId m.nextLockId) = none := by
  rcases hl : m.locks.lookup (generateLockId m.nextLockId) with _ | l
  · rfl
  · obtain ⟨n, hn, hid⟩ := h.fresh _ l hl
    have heq := generateLockId_inj hid
    omega

/-- The locks after a grant: the old ones and the one for the request. -/
theorem lookup_grant {id : LockId} {l : LockInfo}
    (h : (m.grant r now timeout).locks.lookup id = some l) :
    id = generateLockId m.nextLockId ∧ l = ⟨id, r.type, r.transactionId, r.key, now, timeout⟩ ∨
      id ≠ generateLockId m.nextLockId ∧ m.locks.lookup id = some l := by
  rcases lookup_insert_cases h with ⟨rfl, hl⟩ | hold
  · exact Or.inl ⟨rfl, hl⟩
  · exact Or.inr hold

theorem lookup_grant_next : (m.grant r now timeout).locks.lookup (generateLockId m.nextLockId) =
    some ⟨generateLockId m.nextLockId, r.type, r.transactionId, r.key, now, timeout⟩ :=
  AList.lookup_insert m.locks

/-- A grant leaves the locks there are. -/
theorem WellFormed.lookup_grant_of_some (h : m.WellFormed) {id : LockId} {l : LockInfo}
    (hl : m.locks.lookup id = some l) : (m.grant r now timeout).locks.lookup id = some l := by
  have hne : id ≠ generateLockId m.nextLockId := by
    rintro rfl
    rw [h.lookup_next] at hl
    cases hl
  exact (AList.lookup_insert_ne hne).trans hl

/-- A lock granted after a scan without a conflict is compatible with the others. -/
theorem WellFormed.exclusive_grant (h : m.WellFormed)
    (hfree : m.firstConflict r (m.keyLocks.bucket r.key) = none) :
    (m.grant r now timeout).MutuallyExclusive := by
  -- the key index is complete, so the scan met every lock on the key
  have hscan : ∀ id l, m.locks.lookup id = some l → l.key = r.key →
      l.transactionId ≠ r.transactionId → isLockCompatible l.type r.type = true := by
    intro id l hl hkey hne
    exact compatible_of_firstConflict hfree ((h.keyLocks r.key id).mpr ⟨l, hl, hkey⟩) hl hne
  intro id₁ id₂ l₁ l₂ hl₁ hl₂ hkey hne
  rcases lookup_grant hl₁ with ⟨rfl, rfl⟩ | ⟨-, hold₁⟩
  · rcases lookup_grant hl₂ with ⟨rfl, rfl⟩ | ⟨-, hold₂⟩
    · exact absurd rfl hne
    · have hcompatible := hscan id₂ l₂ hold₂ hkey.symm hne.symm
      exact ⟨(isLockCompatible_comm _ _).trans hcompatible, hcompatible⟩
  · rcases lookup_grant hl₂ with ⟨rfl, rfl⟩ | ⟨-, hold₂⟩
    · have hcompatible := hscan id₁ l₁ hold₁ hkey hne
      exact ⟨hcompatible, (isLockCompatible_comm _ _).trans hcompatible⟩
    · exact h.exclusive id₁ id₂ l₁ l₂ hold₁ hold₂ hkey hne

theorem mem_keyLocks_grant {key : MultiLevelKey} {id : LockId} :
    id ∈ bucket (m.grant r now timeout).keyLocks key ↔
      key = r.key ∧ id = generateLockId m.nextLockId ∨ id ∈ m.keyLocks.bucket key := by
  show id ∈ bucket (m.keyLocks.insert r.key _) key ↔ _
  rw [bucket_insert]
  by_cases hkey : key = r.key
  · rw [if_pos hkey, List.mem_append, List.mem_singleton, hkey]
    simp [or_comm]
  · simp [hkey]

theorem mem_transactionLocks_grant {tx : TransactionId} {id : LockId} :
    id ∈ bucket (m.grant r now timeout).transactionLocks tx ↔
      tx = r.transactionId ∧ id = generateLockId m.nextLockId ∨
        id ∈ m.transactionLocks.bucket tx := by
  show id ∈ bucket (m.transactionLocks.insert r.transactionId _) tx ↔ _
  rw [bucket_insert]
  by_cases htx : tx = r.transactionId
  · rw [if_pos htx, List.mem_insert_iff, htx]
    simp
  · simp [htx]

theorem WellFormed.grant (h : m.WellFormed)
    (hfree : m.firstConflict r (m.keyLocks.bucket r.key) = none) :
    (m.grant r now timeout).WellFormed := by
  refine ⟨?_, ?_, ?_, h.exclusive_grant hfree⟩
  · exact h.keyLocks.insert h.lookup_next fun key id => mem_keyLocks_grant
  · exact h.transactionLocks.insert h.lookup_next fun tx id => mem_transactionLocks_grant
  · intro id l hl
    rcases lookup_grant hl with ⟨rfl, -⟩ | ⟨-, hold⟩
    · exact ⟨m.nextLockId, Nat.lt_succ_self _, rfl⟩
    · obtain ⟨n, hn, hid⟩ := h.fresh id l hold
      exact ⟨n, Nat.lt_succ_of_lt hn, hid⟩

end

/-! ## Releases -/

section

variable {m : DefaultLockManager} {id : LockId} {l : LockInfo}

/-- A manager with fewer locks keeps them apart. -/
theorem MutuallyExclusive.of_subset {m' : DefaultLockManager} (h : m.MutuallyExclusive)
    (hsub : ∀ id l, m'.locks.lookup id = some l → m.locks.lookup id = some l) :
    m'.MutuallyExclusive := by
  intro id₁ id₂ l₁ l₂ hl₁ hl₂
  exact h id₁ id₂ l₁ l₂ (hsub id₁ l₁ hl₁) (hsub id₂ l₂ hl₂)

theorem lookup_releaseLock {released : LockId} :
    (m.releaseLock released).2.locks.lookup id = some l ↔
      id ≠ released ∧ m.locks.lookup id = some l := by
  rw [releaseLock]
  rcases hreleased : m.locks.lookup released with _ | old
  · constructor
    · intro hl
      refine ⟨?_, hl⟩
      rintro rfl
      rw [hreleased] at hl
      cases hl
    · rintro ⟨-, hl⟩
      exact hl
  · exact lookup_erase_eq_some

theorem WellFormed.releaseLock (h : m.WellFormed) (released : LockId) :
    (m.releaseLock released).2.WellFormed := by
  have hexclusive : (m.releaseLock released).2.MutuallyExclusive :=
    h.exclusive.of_subset fun id l hl => (lookup_releaseLock.mp hl).2
  have hsub : ∀ id l, (m.releaseLock released).2.locks.lookup id = some l →
      m.locks.lookup id = some l := fun id l hl => (lookup_releaseLock.mp hl).2
  rw [DefaultLockManager.releaseLock] at hexclusive hsub ⊢
  rcases hreleased : m.locks.lookup released with _ | old
  · exact h
  · rw [hreleased] at hexclusive hsub
    refine ⟨h.keyLocks.erase hreleased, h.transactionLocks.erase hreleased, ?_, hexclusive⟩
    intro id l hl
    exact h.fresh id l (hsub id l hl)

theorem lookup_releaseLocks {ids : List LockId} :
    (m.releaseLocks ids).locks.lookup id = some l ↔ id ∉ ids ∧ m.locks.lookup id = some l := by
  induction ids generalizing m with
  | nil => simp [releaseLocks]
  | cons first ids ih =>
      rw [releaseLocks, List.foldl_cons, ← releaseLocks, ih, lookup_releaseLock, List.mem_cons]
      tauto

theorem WellFormed.releaseLocks (h : m.WellFormed) (ids : List LockId) :
    (m.releaseLocks ids).WellFormed := by
  induction ids generalizing m with
  | nil => exact h
  | cons first ids ih => exact ih (h.releaseLock first)

theorem WellFormed.releaseAllLocks (h : m.WellFormed) (i : IterationOrder) (tx : TransactionId) :
    (m.releaseAllLocks i tx).2.WellFormed := by
  rw [DefaultLockManager.releaseAllLocks]
  rcases m.transactionLocks.lookup tx with _ | ids
  · exact h
  · exact (h.releaseLocks (i.order ids)).of_waitGraph _

/-- **Releasing the locks of a transaction** leaves the locks of the others. -/
theorem WellFormed.lookup_releaseAllLocks (h : m.WellFormed) {i : IterationOrder}
    {tx : TransactionId} :
    (m.releaseAllLocks i tx).2.locks.lookup id = some l ↔
      l.transactionId ≠ tx ∧ m.locks.lookup id = some l := by
  have hindex : m.locks.lookup id = some l →
      (id ∈ m.transactionLocks.bucket tx ↔ l.transactionId = tx) := by
    intro hl
    rw [h.transactionLocks tx id]
    constructor
    · rintro ⟨l', hl', htx⟩
      rw [hl] at hl'
      cases hl'
      exact htx
    · intro htx
      exact ⟨l, hl, htx⟩
  rw [DefaultLockManager.releaseAllLocks]
  rcases hids : m.transactionLocks.lookup tx with _ | ids
  · have hempty : m.transactionLocks.bucket tx = [] := by rw [bucket, hids, Option.getD_none]
    rw [hempty] at hindex
    show m.locks.lookup id = some l ↔ _
    constructor
    · intro hl
      exact ⟨fun htx => List.not_mem_nil ((hindex hl).mpr htx), hl⟩
    · exact And.right
  · have hbucket : m.transactionLocks.bucket tx = ids := by rw [bucket, hids, Option.getD_some]
    rw [hbucket] at hindex
    show (m.releaseLocks (i.order ids)).locks.lookup id = some l ↔ _
    rw [lookup_releaseLocks, IterationOrder.mem_order]
    constructor
    · rintro ⟨hnot, hl⟩
      exact ⟨fun htx => hnot ((hindex hl).mpr htx), hl⟩
    · rintro ⟨hne, hl⟩
      exact ⟨fun hmem => hne ((hindex hl).mp hmem), hl⟩

end

/-- A stretch of a call keeps the invariant. -/
theorem WellFormed.stretch {c : LockCall} {m m' : DefaultLockManager} {i : IterationOrder}
    {result : Result LockId ⊕ LockCall} (h : m.WellFormed) (hstep : c.Stretch m i result m') :
    m'.WellFormed := by
  cases hstep with
  | granted now timeout hfree => exact h.grant hfree
  | refused failure holder => exact (h.of_waitGraph _).of_waitGraph _
  | waiting existing deadline hnone => exact h.of_waitGraph _
  | timedOut failure holder => exact h.of_waitGraph _
  | retrying timeout => exact h

end DefaultLockManager

/-! ## Every interleaving -/

/-- A lock manager and the calls of `acquire_lock` in progress. -/
structure LockSystem where
  manager : DefaultLockManager
  calls : List LockCall

/-- What can happen next: a thread enters `acquire_lock`, a call in progress
makes a stretch, or a thread calls one of the releases. -/
inductive LockAction where
  | acquireLock (request : LockRequest) (timeout : Milliseconds)
  | advance (call : ℕ) (moment : Moment)
  | releaseLock (id : LockId)
  | releaseAllLocks (order : IterationOrder) (tx : TransactionId)

namespace LockSystem

/-- A manager nobody has used yet. -/
def create : LockSystem := ⟨DefaultLockManager.create, []⟩

/-- The system after an action; nothing happens where there is no such call. -/
def step (s : LockSystem) : LockAction → LockSystem
  | .acquireLock request timeout => ⟨s.manager, s.calls ++ [⟨request, .entering timeout⟩]⟩
  | .advance n moment =>
      match s.calls[n]? with
      | none => s
      | some c =>
          match c.advance s.manager moment with
          | (.inl _, manager) => ⟨manager, s.calls.eraseIdx n⟩
          | (.inr c, manager) => ⟨manager, s.calls.set n c⟩
  | .releaseLock id => ⟨(s.manager.releaseLock id).2, s.calls⟩
  | .releaseAllLocks order tx => ⟨(s.manager.releaseAllLocks order tx).2, s.calls⟩

/-- The system after a sequence of actions. -/
def run (s : LockSystem) (actions : List LockAction) : LockSystem := actions.foldl step s

/-- A call that moves on makes a stretch; where there is no such call, nothing happens. -/
theorem step_advance_cases (s : LockSystem) (n : ℕ) (moment : Moment) :
    (s.step (.advance n moment)).manager = s.manager ∨
      ∃ (c : LockCall) (result : Result LockId ⊕ LockCall),
        c.Stretch s.manager moment.order result (s.step (.advance n moment)).manager := by
  rw [step]
  rcases s.calls[n]? with _ | c
  · exact Or.inl rfl
  · have hstretch := c.advance_stretch s.manager moment
    dsimp only
    rcases hadvance : c.advance s.manager moment with ⟨_ | c', manager⟩
    · rw [hadvance] at hstretch
      exact Or.inr ⟨c, _, hstretch⟩
    · rw [hadvance] at hstretch
      exact Or.inr ⟨c, _, hstretch⟩

theorem step_wellFormed {s : LockSystem} (h : s.manager.WellFormed) (action : LockAction) :
    (s.step action).manager.WellFormed := by
  cases action with
  | acquireLock request timeout => exact h
  | advance n moment =>
      rcases s.step_advance_cases n moment with heq | ⟨c, result, hstretch⟩
      · rw [heq]
        exact h
      · exact h.stretch hstretch
  | releaseLock id => exact h.releaseLock id
  | releaseAllLocks order tx => exact h.releaseAllLocks order tx

theorem run_wellFormed {s : LockSystem} (h : s.manager.WellFormed) (actions : List LockAction) :
    (s.run actions).manager.WellFormed := by
  induction actions generalizing s with
  | nil => exact h
  | cons action actions ih => exact ih (step_wellFormed h action)

/-- **Incompatible locks are never held together**: in every state that any
interleaving reaches, locks of different transactions on one key are
compatible in both directions. -/
theorem locks_mutuallyExclusive (actions : List LockAction) :
    (create.run actions).manager.MutuallyExclusive :=
  (run_wellFormed DefaultLockManager.wellFormed_create actions).exclusive

end LockSystem

end QcDatabase
