/-
# Edges that are not stale

An edge of the wait graph stands for a call of `acquire_lock` that met a lock of another
transaction (`EdgesCurrent`).  A release that takes away the first lock in the way of a call in
progress leaves the edge behind, and only such a release does: in runs without one
(`KeepsObstacles`) no edge is stale and every refusal is justified
(`closedByCurrentEdges_of_keepsObstacles`).

`DefaultTransactionManager` holds its own mutex while a data operation sleeps in
`acquire_lock`, and its releases need that mutex exclusively.  So it makes only runs of this
kind, with reads alone in progress beside each other (`refusals_justified`).
-/
import QcDatabase.Transaction.LockQueries
import QcDatabase.Transaction.ManagerSteps

open Relation UnorderedMap StepRun

namespace QcDatabase

namespace DefaultLockManager

/-- The first lock in the way of a request. -/
def obstacle (m : DefaultLockManager) (r : LockRequest) : Option LockInfo :=
  m.firstConflict r (m.keyLocks.bucket r.key)

/-- Every edge stands for a call of its transaction whose first obstacle the other one holds,
and a call sleeps in front of its first obstacle. -/
structure EdgesCurrent (m : DefaultLockManager) (calls : List LockCall) : Prop where
  edges : ∀ x y, m.WaitsFor x y → ∃ c ∈ calls, c.request.transactionId = x ∧
    ∃ l, m.obstacle c.request = some l ∧ l.transactionId = y
  asleep : ∀ c ∈ calls, ∀ existing deadline, c.phase = .waiting existing deadline →
    m.obstacle c.request = some existing

/-! ## Obstacles that stay -/

section

variable {m m' : DefaultLockManager} {r : LockRequest} {ids : List LockId} {l : LockInfo}

/-- The obstacle is a lock there is. -/
theorem exists_lookup_of_firstConflict (h : m.firstConflict r ids = some l) :
    ∃ id ∈ ids, m.locks.lookup id = some l := by
  induction ids with
  | nil => cases h
  | cons id ids ih =>
      have hlater (h : m.firstConflict r ids = some l) :
          ∃ id' ∈ id :: ids, m.locks.lookup id' = some l := by
        obtain ⟨id', hid', hl⟩ := ih h
        exact ⟨id', List.mem_cons_of_mem id hid', hl⟩
      rw [firstConflict] at h
      rcases hid : m.locks.lookup id with _ | existing
      · rw [hid] at h
        exact hlater h
      · rw [hid] at h
        dsimp only at h
        split_ifs at h with hown hcompatible
        · exact hlater h
        · exact hlater h
        · exact ⟨id, List.mem_cons_self, hid.trans h⟩

/-- The scan stops at the same lock if the locks up to it are the same, whatever follows, and
if others are left out. -/
theorem firstConflict_filter (p : LockId → Prop) [DecidablePred p] (more : List LockId)
    (hlookup : ∀ id ∈ ids, p id → m'.locks.lookup id = m.locks.lookup id)
    (hkept : ∀ id ∈ ids, m.locks.lookup id = some l → p id)
    (h : m.firstConflict r ids = some l) :
    m'.firstConflict r (ids.filter (fun id => p id) ++ more) = some l := by
  induction ids with
  | nil => cases h
  | cons id ids ih =>
      rw [List.forall_mem_cons] at hlookup hkept
      have hlater := ih hlookup.2 hkept.2
      rw [firstConflict] at h
      by_cases hp : p id
      · rw [List.filter_cons_of_pos (by simpa using hp), List.cons_append, firstConflict,
          hlookup.1 hp]
        rcases hid : m.locks.lookup id with _ | existing
        · rw [hid] at h
          exact hlater h
        · rw [hid] at h
          dsimp only at h ⊢
          split_ifs at h ⊢ with hown hcompatible
          · exact hlater h
          · exact hlater h
          · exact h
      · rw [List.filter_cons_of_neg (by simpa using hp)]
        apply hlater
        rcases hid : m.locks.lookup id with _ | existing
        · rw [hid] at h
          exact h
        · rw [hid] at h
          dsimp only at h
          split_ifs at h with hown hcompatible
          · exact h
          · exact h
          · -- the obstacle itself is not left out
            exact absurd (hkept.1 (hid.trans h)) hp

/-- The obstacle depends on the locks and their lists only. -/
theorem obstacle_of_waitGraph (g : UnorderedMap TransactionId (List TransactionId))
    (r : LockRequest) : { m with waitGraph := g }.obstacle r = m.obstacle r := by
  have hscan (ids : List LockId) :
      { m with waitGraph := g }.firstConflict r ids = m.firstConflict r ids := by
    induction ids with
    | nil => rfl
    | cons id ids ih => rw [firstConflict, firstConflict, ih]
  exact hscan _

/-- A grant puts its lock behind the others. -/
theorem WellFormed.obstacle_grant (h : m.WellFormed) {r' : LockRequest} {now : TimePoint}
    {timeout : Milliseconds} (hl : m.obstacle r = some l) :
    (m.grant r' now timeout).obstacle r = some l := by
  have hlookup : ∀ id ∈ m.keyLocks.bucket r.key, True →
      (m.grant r' now timeout).locks.lookup id = m.locks.lookup id := by
    intro id hid _
    obtain ⟨old, hold, -⟩ := (h.keyLocks r.key id).mp hid
    rw [hold, h.lookup_grant_of_some hold]
  have hscan (more : List LockId) := firstConflict_filter (fun _ => True) more hlookup
    (fun _ _ _ => trivial) hl
  simp only [decide_true, List.filter_true] at hscan
  show (m.grant r' now timeout).firstConflict r
    (bucket (m.keyLocks.insert r'.key (m.keyLocks.bucket r'.key ++ [_])) r.key) = some l
  rw [bucket_insert]
  split_ifs with hkey
  · rw [← hkey]
    exact hscan _
  · simpa using hscan []

/-- A release takes its id out of the list of its key, and it is in no other. -/
theorem WellFormed.bucket_keyLocks_releaseLock (h : m.WellFormed) (id : LockId)
    (key : MultiLevelKey) :
    bucket (m.releaseLock id).2.keyLocks key
      = (m.keyLocks.bucket key).filter (fun id' => id' ≠ id) := by
  have hself (hnot : id ∉ m.keyLocks.bucket key) :
      m.keyLocks.bucket key = (m.keyLocks.bucket key).filter (fun id' => id' ≠ id) := by
    refine (List.filter_eq_self.mpr ?_).symm
    intro id' hid'
    exact decide_eq_true fun heq => hnot (heq ▸ hid')
  unfold DefaultLockManager.releaseLock
  cases hid : m.locks.lookup id with
  | none =>
      apply hself
      intro hmem
      obtain ⟨l, hl, -⟩ := (h.keyLocks key id).mp hmem
      rw [hid] at hl
      cases hl
  | some released =>
      show bucket (m.keyLocks.removeFrom released.key id) key = _
      rw [bucket_removeFrom]
      split_ifs with hkey
      · rw [hkey]
      · apply hself
        intro hmem
        obtain ⟨l, hl, hlkey⟩ := (h.keyLocks key id).mp hmem
        rw [hid] at hl
        cases hl
        exact hkey hlkey.symm

/-- The release of another lock. -/
theorem Listed.obstacle_releaseLock (h : m.Listed) (hlocks : m.WellFormed) {id : LockId}
    (hl : m.obstacle r = some l) (hne : l.lockId ≠ id) :
    (m.releaseLock id).2.obstacle r = some l := by
  have hlookup : ∀ id' ∈ m.keyLocks.bucket r.key, id' ≠ id →
      (m.releaseLock id).2.locks.lookup id' = m.locks.lookup id' := by
    intro id' _ hother
    apply Option.ext
    intro l'
    exact lookup_releaseLock.trans (and_iff_right hother)
  have hkept : ∀ id' ∈ m.keyLocks.bucket r.key, m.locks.lookup id' = some l → id' ≠ id := by
    intro id' _ hl'
    rw [← h.named id' l hl']
    exact hne
  have hscan := firstConflict_filter (fun id' => id' ≠ id) [] hlookup hkept hl
  rw [List.append_nil] at hscan
  rw [obstacle, hlocks.bucket_keyLocks_releaseLock]
  exact hscan

theorem Listed.obstacle_releaseLocks (h : m.Listed) (hlocks : m.WellFormed) {ids : List LockId}
    (hl : m.obstacle r = some l) (hnot : l.lockId ∉ ids) :
    (m.releaseLocks ids).obstacle r = some l := by
  induction ids generalizing m with
  | nil => exact hl
  | cons id ids ih =>
      obtain ⟨hne, hlater⟩ := not_or.mp fun hor => hnot (List.mem_cons.mpr hor)
      exact ih (h.releaseLock id) (hlocks.releaseLock id) (h.obstacle_releaseLock hlocks hl hne)
        hlater

/-- The release of the locks of another transaction. -/
theorem Listed.obstacle_releaseAllLocks (h : m.Listed) (hlocks : m.WellFormed)
    (i : IterationOrder) {tx : TransactionId} (hl : m.obstacle r = some l)
    (hne : l.transactionId ≠ tx) : (m.releaseAllLocks i tx).2.obstacle r = some l := by
  unfold DefaultLockManager.releaseAllLocks
  cases hids : m.transactionLocks.lookup tx with
  | none => exact hl
  | some ids =>
      refine (obstacle_of_waitGraph _ r).trans (h.obstacle_releaseLocks hlocks hl ?_)
      intro hmem
      have hlisted : l.lockId ∈ m.transactionLocks.bucket tx := by
        rw [bucket_of_lookup_some hids]
        exact (i.mem_order).mp hmem
      obtain ⟨owned, howned, htx⟩ := (hlocks.transactionLocks tx l.lockId).mp hlisted
      obtain ⟨id, -, hid⟩ := exists_lookup_of_firstConflict hl
      have hgranted : m.locks.lookup l.lockId = some l := h.granted hid
      rw [hgranted] at howned
      cases howned
      exact hne htx

end

/-! ## Edges that stay current -/

section

variable {m m' : DefaultLockManager} {calls calls' : List LockCall} {c : LockCall}

theorem edgesCurrent_create : create.EdgesCurrent [] := by
  constructor
  · intro x y hxy
    have hmem : y ∈ bucket (∅ : UnorderedMap TransactionId (List TransactionId)) x := hxy
    rw [bucket_empty] at hmem
    exact absurd hmem List.not_mem_nil
  · exact fun c hc => absurd hc List.not_mem_nil

/-- A call that enters. -/
theorem EdgesCurrent.enter (h : m.EdgesCurrent calls) (r : LockRequest) (timeout : Milliseconds) :
    m.EdgesCurrent (calls ++ [⟨r, .entering timeout⟩]) := by
  constructor
  · intro x y hxy
    obtain ⟨c, hc, hrest⟩ := h.edges x y hxy
    exact ⟨c, List.mem_append_left _ hc, hrest⟩
  · intro c hc existing deadline hphase
    rcases List.mem_append.mp hc with hc | hc
    · exact h.asleep c hc existing deadline hphase
    · rw [List.mem_singleton.mp hc] at hphase
      cases hphase

/-- Fewer edges, and every obstacle of before. -/
theorem EdgesCurrent.of_obstacles (h : m.EdgesCurrent calls)
    (hedges : ∀ x y, m'.WaitsFor x y → m.WaitsFor x y)
    (hobstacles : ∀ c ∈ calls, ∀ l, m.obstacle c.request = some l →
      m'.obstacle c.request = some l) : m'.EdgesCurrent calls := by
  constructor
  · intro x y hxy
    obtain ⟨c, hc, htx, l, hl, hy⟩ := h.edges x y (hedges x y hxy)
    exact ⟨c, hc, htx, l, hobstacles c hc l hl, hy⟩
  · intro c hc existing deadline hphase
    exact hobstacles c hc existing (h.asleep c hc existing deadline hphase)

/-- A call that gives up takes its edge with it. -/
theorem EdgesCurrent.giveUp (h : m.EdgesCurrent calls) {l : LockInfo}
    (hl : m.obstacle c.request = some l)
    (hobstacle : ∀ r, m'.obstacle r = m.obstacle r)
    (hedges : ∀ x y, m'.WaitsFor x y →
      m.WaitsFor x y ∧ ¬ (x = c.request.transactionId ∧ y = l.transactionId))
    (hothers : ∀ c' ∈ calls, c' = c ∨ c' ∈ calls') (hcalls : ∀ c' ∈ calls', c' ∈ calls) :
    m'.EdgesCurrent calls' := by
  constructor
  · intro x y hxy
    obtain ⟨hold, hdropped⟩ := hedges x y hxy
    obtain ⟨c', hc', rfl, l', hl', rfl⟩ := h.edges x y hold
    rcases hothers c' hc' with rfl | hstays
    · -- this edge went with the call
      rw [hl] at hl'
      cases hl'
      exact absurd ⟨rfl, rfl⟩ hdropped
    · exact ⟨c', hstays, rfl, l', (hobstacle _).trans hl', rfl⟩
  · intro c' hc' existing deadline hphase
    exact (hobstacle _).trans (h.asleep c' (hcalls c' hc') existing deadline hphase)

/-- A call that gets its lock takes all edges of its transaction with it. -/
theorem EdgesCurrent.grant (h : m.EdgesCurrent calls) (hlocks : m.WellFormed) (now : TimePoint)
    (timeout : Milliseconds) (hothers : ∀ c' ∈ calls, c' = c ∨ c' ∈ calls')
    (hcalls : ∀ c' ∈ calls', c' ∈ calls) :
    (m.grant c.request now timeout).EdgesCurrent calls' := by
  constructor
  · intro x y hxy
    have hmem : y ∈ bucket (m.waitGraph.erase c.request.transactionId) x := hxy
    rw [bucket_erase] at hmem
    split_ifs at hmem with hx
    · exact absurd hmem List.not_mem_nil
    · obtain ⟨c', hc', htx, l, hl, hy⟩ := h.edges x y hmem
      rcases hothers c' hc' with rfl | hstays
      · exact absurd htx.symm hx
      · exact ⟨c', hstays, htx, l, hlocks.obstacle_grant hl, hy⟩
  · intro c' hc' existing deadline hphase
    exact hlocks.obstacle_grant (h.asleep c' (hcalls c' hc') existing deadline hphase)

/-- A call that goes on asks for the same lock, and sleeps in front of its first obstacle. -/
theorem EdgesCurrent.goOn (h : m.EdgesCurrent calls) (next : LockCall)
    (hrequest : next.request = c.request) (hobstacle : ∀ r, m'.obstacle r = m.obstacle r)
    (hedges : ∀ x y, m'.WaitsFor x y → m.WaitsFor x y ∨
      x = c.request.transactionId ∧ ∃ l, m.obstacle c.request = some l ∧ l.transactionId = y)
    (hsleeps : ∀ existing deadline, next.phase = .waiting existing deadline →
      m.obstacle c.request = some existing)
    (hnext : next ∈ calls') (hothers : ∀ c' ∈ calls, c' = c ∨ c' ∈ calls')
    (hcalls : ∀ c' ∈ calls', c' ∈ calls ∨ c' = next) : m'.EdgesCurrent calls' := by
  constructor
  · intro x y hxy
    rcases hedges x y hxy with hold | ⟨rfl, l, hl, hy⟩
    · obtain ⟨c', hc', htx, l, hl, hy⟩ := h.edges x y hold
      rcases hothers c' hc' with rfl | hstays
      · refine ⟨next, hnext, by rw [hrequest]; exact htx, l, ?_, hy⟩
        rw [hobstacle, hrequest]
        exact hl
      · exact ⟨c', hstays, htx, l, (hobstacle _).trans hl, hy⟩
    · refine ⟨next, hnext, by rw [hrequest], l, ?_, hy⟩
      rw [hobstacle, hrequest]
      exact hl
  · intro c' hc' existing deadline hphase
    rw [hobstacle]
    rcases hcalls c' hc' with hold | rfl
    · exact h.asleep c' hold existing deadline hphase
    · rw [hrequest]
      exact hsleeps existing deadline hphase

/-- **A stretch keeps the edges current**: the call gets its lock, gives up or goes on. -/
theorem EdgesCurrent.advance (h : m.EdgesCurrent calls) (hlocks : m.WellFormed)
    (hlisted : m.Listed) (hc : c ∈ calls) (w : Moment) (calls' : List LockCall)
    (hothers : ∀ c' ∈ calls, c' = c ∨ c' ∈ calls')
    (hnext : ∀ next, (c.advance m w).1 = .inr next → next ∈ calls')
    (hcalls : ∀ c' ∈ calls', c' ∈ calls ∨ (c.advance m w).1 = .inr c') :
    (c.advance m w).2.EdgesCurrent calls' := by
  have hover (result : Result LockId) (hresult : (c.advance m w).1 = .inl result) :
      ∀ c' ∈ calls', c' ∈ calls := by
    intro c' hc'
    refine (hcalls c' hc').resolve_right fun hinr => ?_
    rw [hresult] at hinr
    cases hinr
  rw [LockCall.advance] at hover hnext hcalls ⊢
  rcases hphase : c.phase with timeout | ⟨existing, deadline⟩
  · rw [hphase] at hover hnext hcalls
    dsimp only at hover hnext hcalls ⊢
    rw [acquireLock] at hover hnext hcalls ⊢
    rcases hfirst : m.firstConflict c.request (m.keyLocks.bucket c.request.key) with _ | l
    · rw [hfirst] at hover
      exact h.grant hlocks w.now timeout hothers (hover _ rfl)
    · rw [hfirst] at hover hnext hcalls
      dsimp only at hover hnext hcalls ⊢
      split_ifs at hover hnext hcalls ⊢ with hcycle
      · refine h.giveUp (c := c) hfirst ?_ ?_ hothers (hover _ rfl)
        · exact fun r => (obstacle_of_waitGraph _ r).trans (obstacle_of_waitGraph _ r)
        · intro x y hxy
          obtain ⟨hadded, hdropped⟩ := waitsFor_dropWait.mp hxy
          exact ⟨(waitsFor_addWait.mp hadded).resolve_right hdropped, hdropped⟩
      · refine h.goOn (c := c) ⟨c.request, .waiting l _⟩ rfl (obstacle_of_waitGraph _) ?_ ?_
          (hnext _ rfl) hothers ?_
        · intro x y hxy
          rcases waitsFor_addWait.mp hxy with hold | ⟨hx, hy⟩
          · exact Or.inl hold
          · exact Or.inr ⟨hx, l, hfirst, hy.symm⟩
        · rintro existing deadline ⟨⟩
          exact hfirst
        · exact fun c' hc' => (hcalls c' hc').imp_right fun hinr => (Sum.inr.inj hinr).symm
  · rw [hphase] at hover hnext hcalls
    dsimp only at hover hnext hcalls ⊢
    -- the lock it sleeps in front of is still there
    have hl := h.asleep c hc existing deadline hphase
    obtain ⟨id, -, hid⟩ := exists_lookup_of_firstConflict hl
    have hholder : LockCall.holder m existing w.dangling = existing.transactionId := by
      rw [LockCall.holder, show m.locks.lookup existing.lockId = some existing from
        hlisted.granted hid]
    split_ifs at hover hnext hcalls ⊢ with hlate
    · refine h.giveUp (c := c) hl (obstacle_of_waitGraph _) ?_ hothers (hover _ rfl)
      intro x y hxy
      rw [← hholder]
      exact waitsFor_dropWait.mp hxy
    · refine h.goOn (c := c) ⟨c.request, .entering _⟩ rfl (fun _ => rfl) (fun _ _ => Or.inl) ?_
        (hnext _ rfl) hothers ?_
      · rintro existing deadline ⟨⟩
      · exact fun c' hc' => (hcalls c' hc').imp_right fun hinr => (Sum.inr.inj hinr).symm

end

end DefaultLockManager

/-- The next stretch of the call is refused with `DEADLOCK_DETECTED`. -/
def LockCall.RefusedAsDeadlock (c : LockCall) (m : DefaultLockManager) (w : Moment) : Prop :=
  ∃ failure, (c.advance m w).1 = .inl (.error failure) ∧ failure.status = .deadlockDetected

/-! ## Runs of the lock manager -/

/-- The calls beside one of them. -/
theorem eq_or_mem_eraseIdx {α : Type} {l : List α} {n : ℕ} {a b : α} (ha : l[n]? = some a)
    (hb : b ∈ l) : b = a ∨ b ∈ l.eraseIdx n := by
  obtain ⟨k, hk⟩ := List.mem_iff_getElem?.mp hb
  by_cases hkn : k = n
  · subst hkn
    exact Or.inl (Option.some.inj (hk.symm.trans ha))
  · exact Or.inr (List.mem_eraseIdx_iff_getElem?.mpr ⟨k, hkn, hk⟩)

theorem eq_or_mem_set {α : Type} {l : List α} {n : ℕ} {a b : α} (ha : l[n]? = some a)
    (hb : b ∈ l) (next : α) : b = a ∨ b ∈ l.set n next := by
  obtain ⟨k, hk⟩ := List.mem_iff_getElem?.mp hb
  by_cases hkn : k = n
  · subst hkn
    exact Or.inl (Option.some.inj (hk.symm.trans ha))
  · refine Or.inr (List.mem_iff_getElem?.mpr ⟨k, ?_⟩)
    rw [List.getElem?_set_ne (Ne.symm hkn)]
    exact hk

namespace LockSystem

/-- The step takes no lock away that is the first one in the way of a call in progress. -/
def KeepsObstacles (s : LockSystem) : LockAction → Prop
  | .releaseLock id => ∀ c ∈ s.calls, ∀ l ∈ s.manager.obstacle c.request, l.lockId ≠ id
  | .releaseAllLocks _ tx =>
      ∀ c ∈ s.calls, ∀ l ∈ s.manager.obstacle c.request, l.transactionId ≠ tx
  | _ => True

instance (s : LockSystem) (action : LockAction) : Decidable (s.KeepsObstacles action) :=
  match action with
  | .acquireLock _ _ => inferInstanceAs (Decidable True)
  | .advance _ _ => inferInstanceAs (Decidable True)
  | .releaseLock _ => inferInstanceAs (Decidable (∀ c ∈ s.calls, _))
  | .releaseAllLocks _ _ => inferInstanceAs (Decidable (∀ c ∈ s.calls, _))

/-- The tables are in order and no edge is stale. -/
structure Current (s : LockSystem) : Prop where
  locks : s.manager.WellFormed
  listed : s.manager.Listed
  acyclic : Acyclic s.manager.WaitsFor
  edges : s.manager.EdgesCurrent s.calls

variable {s : LockSystem}

/-- **Step lemma.** -/
theorem Current.step (h : s.Current) {action : LockAction} (hkeep : s.KeepsObstacles action) :
    (s.step action).Current := by
  refine ⟨step_wellFormed h.locks action, step_listed h.listed action, step_acyclic h.acyclic action,
    ?_⟩
  cases action with
  | acquireLock request timeout => exact h.edges.enter request timeout
  | advance n moment =>
      rw [LockSystem.step]
      rcases hc : s.calls[n]? with _ | c
      · exact h.edges
      · have hmem := List.mem_of_getElem? hc
        dsimp only
        rcases hadvance : c.advance s.manager moment with ⟨result | next, manager⟩
        · have hstretch := h.edges.advance h.locks h.listed hmem moment (s.calls.eraseIdx n)
            (fun c' hc' => eq_or_mem_eraseIdx hc hc') ?_
            fun c' hc' => Or.inl (List.mem_of_mem_eraseIdx hc')
          · rwa [hadvance] at hstretch
          · intro next hnext
            rw [hadvance] at hnext
            cases hnext
        · have hstretch := h.edges.advance h.locks h.listed hmem moment (s.calls.set n next)
            (fun c' hc' => eq_or_mem_set hc hc' next) ?_ ?_
          · rwa [hadvance] at hstretch
          · intro next' hnext
            rw [hadvance] at hnext
            cases hnext
            exact List.mem_set (List.getElem?_eq_some_iff.mp hc).1 next
          · intro c' hc'
            rw [hadvance]
            exact (List.mem_or_eq_of_mem_set hc').imp_right fun heq => by rw [heq]
  | releaseLock id =>
      refine h.edges.of_obstacles ?_ ?_
      · intro x y hxy
        have hmem : y ∈ bucket (s.manager.releaseLock id).2.waitGraph x := hxy
        rwa [DefaultLockManager.waitGraph_releaseLock] at hmem
      · intro c hc l hl
        exact h.listed.obstacle_releaseLock h.locks hl (hkeep c hc l hl)
  | releaseAllLocks order tx =>
      refine h.edges.of_obstacles (fun _ _ => DefaultLockManager.waitsFor_of_releaseAllLocks) ?_
      intro c hc l hl
      exact h.listed.obstacle_releaseAllLocks h.locks order hl (hkeep c hc l hl)

theorem Current.currentEdge (h : s.Current) {x y : TransactionId} (hxy : s.manager.WaitsFor x y) :
    s.CurrentEdge x y := by
  obtain ⟨c, hc, htx, l, hl, rfl⟩ := h.edges.edges x y hxy
  exact ⟨hxy, c, hc, htx, h.locks.blocks_of_firstConflict hl⟩

theorem Current.refusalJustified (h : s.Current) (n : ℕ) (moment : Moment) :
    s.RefusalJustified n moment :=
  refusalJustified_of_closedByCurrentEdges h.locks h.acyclic
    (closedByCurrentEdges_of_current (fun _ _ => h.currentEdge) (.advance n moment))

theorem run_current {actions : List LockAction} (h : Along step KeepsObstacles create actions) :
    (create.run actions).Current :=
  h.invariant Current (fun _ _ hcurrent hkeep => hcurrent.step hkeep)
    ⟨DefaultLockManager.wellFormed_create, DefaultLockManager.listed_create,
      DefaultLockManager.acyclic_create, DefaultLockManager.edgesCurrent_create⟩

/-- **Only a release can leave a stale edge**: in a run whose releases take away no lock that is
the first one in the way of a call in progress, all edges are current and all refusals
justified. -/
theorem closedByCurrentEdges_of_keepsObstacles {actions : List LockAction}
    (h : Along step KeepsObstacles create actions) :
    Along step ClosedByCurrentEdges create actions ∧
      ∀ n moment, (create.run actions).RefusalJustified n moment := by
  refine ⟨along_iff_forall.mpr ?_, (run_current h).refusalJustified⟩
  rintro before action after rfl
  exact closedByCurrentEdges_of_current (fun _ _ => (run_current h.append_left).currentEdge) action

/-- The release of the lock that a sleeper waits for is no such step. -/
example : Along step KeepsObstacles create sampleWaiting ∧
    ¬ (create.run sampleWaiting).KeepsObstacles (.releaseLock "lock_1") := by decide +kernel

end LockSystem

/-! ## Runs of the transaction manager -/

theorem DataOperation.sharesMutex_iff {operation : DataOperation} :
    operation.sharesMutex = true ↔ operation = .read := by
  cases operation <;> simp [DataOperation.sharesMutex]

namespace TransactionSystem

/-- The calls of `acquire_lock` in progress. -/
def lockCalls (s : TransactionSystem) : List LockCall := s.calls.filterMap DataCall.lockCall

/-- The lock manager with these calls. -/
def locking (s : TransactionSystem) : LockSystem := ⟨s.manager.lockManager, s.lockCalls⟩

variable {s : TransactionSystem}

theorem mem_lockCalls {call : LockCall} :
    call ∈ s.lockCalls ↔ ∃ c ∈ s.calls, c.lockCall = some call :=
  List.mem_filterMap

/-- `mutex_` is held by one call, or by reads. -/
def MutexHeld (s : TransactionSystem) : Prop :=
  s.calls.length ≤ 1 ∨ ∀ c ∈ s.calls, c.operation.sharesMutex = true

/-- What is known of every state, with no edge stale. -/
structure Refusing (s : TransactionSystem) : Prop where
  quiet : s.Quiet
  current : s.locking.Current
  mutex : s.MutexHeld

theorem refusing_create : create.Refusing where
  quiet := quiet_create
  current := ⟨DefaultLockManager.wellFormed_create, DefaultLockManager.listed_create,
    DefaultLockManager.acyclic_create, DefaultLockManager.edgesCurrent_create⟩
  mutex := Or.inl (Nat.zero_le 1)

/-- While no call is in progress there are no edges. -/
theorem Refusing.no_edges (h : s.Refusing) (hcalls : s.calls = []) (x y : TransactionId) :
    ¬ s.manager.lockManager.WaitsFor x y := by
  intro hxy
  obtain ⟨call, hmem, -⟩ := h.current.edges.edges x y hxy
  obtain ⟨c, hc, -⟩ := mem_lockCalls.mp hmem
  rw [hcalls] at hc
  cases hc

theorem Refusing.exclusively (h : s.Refusing) {action : TransactionAction}
    {f : DefaultTransactionManager → DefaultTransactionManager}
    (hf : action.managerFunction = some f) (hquiet : (s.exclusively f).Quiet) :
    (s.exclusively f).Refusing := by
  rcases s.exclusively_cases f with ⟨hcalls, hafter⟩ | ⟨-, hsame⟩
  · have hgraph : (f s.manager).lockManager.Listed ∧
        ∀ x y, ¬ (f s.manager).lockManager.WaitsFor x y := by
      refine DefaultTransactionManager.invariant_of_managerFunction
        (fun m => m.lockManager.Listed ∧ ∀ x y, ¬ m.lockManager.WaitsFor x y) ?_ ?_ hf
        ⟨h.current.listed, h.no_edges hcalls⟩
      · rintro m m' ⟨hlisted, hnone⟩ hsettles
        rcases hsettles.locks with hsame | ⟨i, ended, hreleased, -⟩
        · rw [hsame]
          exact ⟨hlisted, hnone⟩
        · rw [hreleased]
          exact ⟨hlisted.releaseAllLocks i ended, fun x y hxy =>
            hnone x y (DefaultLockManager.waitsFor_of_releaseAllLocks hxy)⟩
      · intro isolation now _
        rw [DefaultTransactionManager.beginTransaction]
        split_ifs
        · exact ⟨h.current.listed, h.no_edges hcalls⟩
        · exact ⟨h.current.listed, h.no_edges hcalls⟩
    refine ⟨hquiet, ⟨hquiet.system.manager.locks, ?_, hquiet.acyclic, ?_⟩, ?_⟩
    · rw [hafter]
      exact hgraph.1
    · rw [hafter]
      refine ⟨fun x y hxy => absurd hxy (hgraph.2 x y), fun call hcall => ?_⟩
      obtain ⟨c, hc, -⟩ := mem_lockCalls.mp hcall
      rw [hcalls] at hc
      cases hc
    · rw [hafter, MutexHeld]
      exact h.mutex
  · rw [hsame]
    exact h

theorem Refusing.enter (h : s.Refusing) (now : TimePoint) (id : TransactionId)
    (key : MultiLevelKey) (operation : DataOperation)
    (hquiet : (s.enter now id key operation).Quiet) :
    (s.enter now id key operation).Refusing := by
  rcases s.enter_cases now id key operation with hsame | ⟨c, hfree, hstart, hafter⟩
  · rw [hsame]
    exact h
  · obtain ⟨tx, -, -, hc⟩ := DefaultTransactionManager.startCall_ok hstart
    have hoperation : c.operation = operation := by
      rcases hc with ⟨-, rfl⟩ | ⟨type, -, rfl⟩ <;> rfl
    refine ⟨hquiet, ⟨hquiet.system.manager.locks, ?_, hquiet.acyclic, ?_⟩, ?_⟩
    · rw [hafter]
      exact h.current.listed
    · rw [hafter]
      show s.manager.lockManager.EdgesCurrent (List.filterMap DataCall.lockCall (s.calls ++ [c]))
      rw [List.filterMap_append]
      rcases hc with ⟨-, rfl⟩ | ⟨type, -, rfl⟩
      · have hnone := h.current.edges
        rwa [← List.append_nil s.locking.calls] at hnone
      · exact h.current.edges.enter _ _
    · rw [hafter, MutexHeld]
      rw [mutexFree] at hfree
      split_ifs at hfree with hshares
      · refine Or.inr fun c' hc' => ?_
        rcases List.mem_append.mp hc' with hold | hnew
        · exact List.all_eq_true.mp hfree c' hold
        · rw [List.mem_singleton.mp hnew, hoperation, hshares]
      · left
        rw [List.isEmpty_iff.mp hfree]
        exact le_rfl

/-- A stretch of the `acquire_lock` of one call, whatever becomes of the call. -/
theorem Refusing.stretch (h : s.Refusing) {c : DataCall} {call : LockCall} (hc : c ∈ s.calls)
    (hcall : c.lockCall = some call) (moment : Moment) (calls : List DataCall)
    (hquiet : Quiet ⟨{ s.manager with
      lockManager := (call.advance s.manager.lockManager moment).2 }, calls, s.deadlocks⟩)
    (hstay : ∀ c' ∈ s.calls, c' = c ∨ c' ∈ calls)
    (hnext : ∀ next, (call.advance s.manager.lockManager moment).1 = .inr next →
      ∃ c' ∈ calls, c'.lockCall = some next)
    (hcalls : ∀ c' ∈ calls, ∀ other, c'.lockCall = some other →
      c' ∈ s.calls ∨ (call.advance s.manager.lockManager moment).1 = .inr other)
    (hmutex : calls.length ≤ 1 ∨ ∀ c' ∈ calls, c'.operation.sharesMutex = true) :
    Refusing ⟨{ s.manager with
      lockManager := (call.advance s.manager.lockManager moment).2 }, calls, s.deadlocks⟩ := by
  have hstretch := call.advance_stretch s.manager.lockManager moment
  refine ⟨hquiet, ⟨hquiet.system.manager.locks, h.current.listed.stretch hstretch, hquiet.acyclic,
    ?_⟩, hmutex⟩
  refine h.current.edges.advance h.current.locks h.current.listed
    (mem_lockCalls.mpr ⟨c, hc, hcall⟩) moment _ ?_ ?_ ?_
  · intro other hother
    obtain ⟨c', hc', hcall'⟩ := mem_lockCalls.mp hother
    rcases hstay c' hc' with rfl | hstays
    · exact Or.inl (Option.some.inj (hcall'.symm.trans hcall))
    · exact Or.inr (mem_lockCalls.mpr ⟨c', hstays, hcall'⟩)
  · intro next hresult
    exact mem_lockCalls.mpr (hnext next hresult)
  · intro other hother
    obtain ⟨c', hc', hcall'⟩ := mem_lockCalls.mp hother
    exact (hcalls c' hc' other hcall').imp_left fun hold => mem_lockCalls.mpr ⟨c', hold, hcall'⟩

/-- The mutex is held as before while a call comes further. -/
theorem MutexHeld.set (h : s.MutexHeld) {n : ℕ} {c c' : DataCall} (hn : s.calls[n]? = some c)
    (hoperation : c'.operation = c.operation) :
    (s.calls.set n c').length ≤ 1 ∨ ∀ d ∈ s.calls.set n c', d.operation.sharesMutex = true := by
  rcases h with hone | hshared
  · exact Or.inl (by rwa [List.length_set])
  · refine Or.inr fun d hd => ?_
    rcases List.mem_or_eq_of_mem_set hd with hold | rfl
    · exact hshared d hold
    · rw [hoperation]
      exact hshared c (List.mem_of_getElem? hn)

theorem MutexHeld.eraseIdx (h : s.MutexHeld) (n : ℕ) :
    (s.calls.eraseIdx n).length ≤ 1 ∨
      ∀ c ∈ s.calls.eraseIdx n, c.operation.sharesMutex = true :=
  h.imp ((List.length_eraseIdx_le s.calls n).trans ·)
    fun hshared c hc => hshared c (List.mem_of_mem_eraseIdx hc)

theorem Refusing.acquire (h : s.Refusing) (n : ℕ) (moment : Moment)
    (hquiet : (s.acquire n moment).Quiet) : (s.acquire n moment).Refusing := by
  rcases hn : s.calls[n]? with _ | ⟨id, key, operation, call | lock⟩
  · rw [TransactionSystem.acquire, hn]
    exact h
  · have hc := List.mem_of_getElem? hn
    have hstretch := h.stretch hc rfl moment
    rw [TransactionSystem.acquire, hn] at hquiet ⊢
    dsimp only at hquiet ⊢
    rcases hadvance : call.advance s.manager.lockManager moment with
      ⟨(failure | lock) | next, lockManager⟩
    · rw [hadvance] at hquiet hstretch
      refine hstretch _ hquiet (fun c' hc' => eq_or_mem_eraseIdx hn hc') ?_ ?_ (h.mutex.eraseIdx n)
      · rintro next ⟨⟩
      · exact fun c' hc' _ _ => Or.inl (List.mem_of_mem_eraseIdx hc')
    · rw [hadvance] at hquiet hstretch
      refine hstretch _ hquiet (fun c' hc' => eq_or_mem_set hn hc' _) ?_ ?_ (h.mutex.set hn rfl)
      · rintro next ⟨⟩
      · intro c' hc' other hother
        rcases List.mem_or_eq_of_mem_set hc' with hold | rfl
        · exact Or.inl hold
        · cases hother
    · rw [hadvance] at hquiet hstretch
      refine hstretch _ hquiet (fun c' hc' => eq_or_mem_set hn hc' _) ?_ ?_ (h.mutex.set hn rfl)
      · rintro _ ⟨⟩
        exact ⟨_, List.mem_set (List.getElem?_eq_some_iff.mp hn).1 _, rfl⟩
      · intro c' hc' other hother
        rcases List.mem_or_eq_of_mem_set hc' with hold | rfl
        · exact Or.inl hold
        · exact Or.inr (congrArg Sum.inr (Option.some.inj hother))
  · rw [TransactionSystem.acquire, hn]
    exact h

theorem Refusing.record (h : s.Refusing) (n : ℕ) (clock : ℕ → TimePoint)
    (hquiet : (s.record n clock).Quiet) : (s.record n clock).Refusing := by
  rcases s.record_cases n clock with ⟨-, hsame⟩ | ⟨id, key, operation, lock, hn, -, hafter⟩
  · rw [hsame]
    exact h
  · have hlockManager (c : DataCall) :
        (s.manager.recordOperation clock c lock).2.lockManager = s.manager.lockManager := by
      rw [DefaultTransactionManager.recordOperation]
      rcases s.manager.transactions.lookup c.transactionId with _ | tx <;> rfl
    rw [hafter] at hquiet ⊢
    refine ⟨hquiet, ⟨hquiet.system.manager.locks, ?_, hquiet.acyclic, ?_⟩, h.mutex.eraseIdx n⟩
    · show DefaultLockManager.Listed (DefaultTransactionManager.lockManager _)
      rw [hlockManager]
      exact h.current.listed
    · show DefaultLockManager.EdgesCurrent (DefaultTransactionManager.lockManager _) _
      rw [hlockManager]
      -- the call was through with its `acquire_lock`
      have hcalls (call : LockCall) : call ∈ (s.calls.eraseIdx n).filterMap DataCall.lockCall ↔
          call ∈ s.lockCalls := by
        rw [List.mem_filterMap, mem_lockCalls]
        constructor
        · rintro ⟨c, hc, hcall⟩
          exact ⟨c, List.mem_of_mem_eraseIdx hc, hcall⟩
        · rintro ⟨c, hc, hcall⟩
          rcases eq_or_mem_eraseIdx hn hc with rfl | hstays
          · cases hcall
          · exact ⟨c, hstays, hcall⟩
      constructor
      · intro x y hxy
        obtain ⟨call, hcall, hrest⟩ := h.current.edges.edges x y hxy
        exact ⟨call, (hcalls call).mpr hcall, hrest⟩
      · exact fun call hcall => h.current.edges.asleep call ((hcalls call).mp hcall)

/-- **Step lemma.** -/
theorem Refusing.step (h : s.Refusing) (action : TransactionAction) : (s.step action).Refusing := by
  have hquiet := h.quiet.step action
  rcases hfunction : action.managerFunction with _ | f
  · cases action with
    | call now id key operation => exact h.enter now id key operation hquiet
    | acquire n moment => exact h.acquire n moment hquiet
    | record n clock => exact h.record n clock hquiet
    | detectDeadlocks order =>
        rw [TransactionSystem.step] at hquiet ⊢
        split_ifs at hquiet ⊢
        · exact ⟨hquiet, h.current, h.mutex⟩
        · exact h
    | resolveDeadlock order =>
        rw [TransactionSystem.step, h.quiet.deadlocks]
        exact h
    | _ => cases hfunction
  · rw [step_of_managerFunction hfunction] at hquiet ⊢
    exact h.exclusively hfunction hquiet

theorem Refusing.run (actions : List TransactionAction) : (create.run actions).Refusing :=
  StepRun.invariant Refusing (fun _ action h => h.step action) refusing_create actions

/-! ## Refusals -/

/-- Nobody waits for itself. -/
theorem ne_of_waitsOn {t : LockSystem} {x y : TransactionId} (h : t.WaitsOn x y) : x ≠ y := by
  rintro rfl
  obtain ⟨call, -, htx, id, l, -, hholder, hother, -⟩ := h
  exact hother (hholder.trans htx.symm)

/-- Who waits has a call in progress. -/
theorem exists_call_of_waitsOn (h : SystemInv s) {x y : TransactionId}
    (hxy : s.locking.WaitsOn x y) : ∃ c ∈ s.calls, c.transactionId = x := by
  obtain ⟨call, hmem, rfl, -⟩ := hxy
  obtain ⟨c, hc, hcall⟩ := mem_lockCalls.mp hmem
  exact ⟨c, hc, (h.requests c hc call (DataCall.phase_of_lockCall hcall)).symm⟩

/-- Two transactions on a cycle have a call each, so `mutex_` is shared. -/
theorem Refusing.shares_of_cycle (h : s.Refusing) {x : TransactionId}
    (hcycle : TransGen s.locking.WaitsOn x x) : ∀ c ∈ s.calls, c.operation.sharesMutex = true := by
  refine h.mutex.resolve_left fun hone => ?_
  obtain ⟨y, hxy, hyx⟩ := TransGen.head'_iff.mp hcycle
  rcases hyx.cases_head with rfl | ⟨z, hyz, -⟩
  · exact ne_of_waitsOn hxy rfl
  · obtain ⟨c, hc, rfl⟩ := exists_call_of_waitsOn h.quiet.system hxy
    obtain ⟨c', hc', rfl⟩ := exists_call_of_waitsOn h.quiet.system hyz
    have hsame : c = c' := by
      obtain ⟨d, hcalls⟩ := List.length_eq_one_iff.mp
        (le_antisymm hone (List.length_pos_of_mem hc))
      rw [hcalls] at hc hc'
      rw [List.mem_singleton.mp hc, List.mem_singleton.mp hc']
    exact ne_of_waitsOn hxy (congrArg DataCall.transactionId hsame)

/-- **Through the transaction manager every refusal is justified**: in every state that any run
reaches in which a data operation is about to be refused with `DEADLOCK_DETECTED`, only reads are
in progress, and the transaction is on a cycle of them that are blocked by each other's locks;
and while no data operation is in progress the wait graph has no edge. -/
theorem refusals_justified (actions : List TransactionAction) :
    (∀ c ∈ (create.run actions).calls, ∀ call moment, c.lockCall = some call →
      call.RefusedAsDeadlock (create.run actions).manager.lockManager moment →
        (∀ c' ∈ (create.run actions).calls, c'.operation = .read) ∧
          TransGen (create.run actions).locking.WaitsOn c.transactionId c.transactionId) ∧
      ((create.run actions).calls = [] →
        ∀ x y, ¬ (create.run actions).manager.lockManager.WaitsFor x y) := by
  have h := Refusing.run actions
  refine ⟨?_, h.no_edges⟩
  rintro c hc call moment hcall ⟨failure, hrefused, hstatus⟩
  have hmem : call ∈ (create.run actions).lockCalls := mem_lockCalls.mpr ⟨c, hc, hcall⟩
  obtain ⟨n, hn⟩ := List.mem_iff_getElem?.mp hmem
  have hjustified := h.current.refusalJustified n moment call failure hn hrefused hstatus
  rw [h.quiet.system.requests c hc call (DataCall.phase_of_lockCall hcall)] at hjustified
  refine ⟨fun c' hc' => ?_, hjustified⟩
  exact DataOperation.sharesMutex_iff.mp (h.shares_of_cycle hjustified c' hc')

/-- Two transactions that have written a key each read the key of the other. -/
def sampleReads : List TransactionAction :=
  [.start, .beginTransaction .serializable 0, .beginTransaction .serializable 0,
    .call 0 1 ⟨[97], []⟩ .remove, .acquire 0 (momentAt 0), .record 0 fun _ => 0,
    .call 0 2 ⟨[98], []⟩ .remove, .acquire 0 (momentAt 0), .record 0 fun _ => 0,
    .call 0 2 ⟨[97], []⟩ .read, .acquire 0 (momentAt 0), .call 0 1 ⟨[98], []⟩ .read]

/-- The second read is refused, and both are blocked. -/
theorem refusals_justified_sampleReads :
    (LockCall.mk ⟨1, ⟨[98], []⟩, .shared⟩ (.entering 5000)).RefusedAsDeadlock
        (create.run sampleReads).manager.lockManager (momentAt 0) ∧
      TransGen (create.run sampleReads).locking.WaitsOn 1 1 := by
  have hrefused : (LockCall.mk ⟨1, ⟨[98], []⟩, .shared⟩ (.entering 5000)).RefusedAsDeadlock
      (create.run sampleReads).manager.lockManager (momentAt 0) :=
    ⟨DefaultLockManager.deadlockDetected 1, by decide +kernel, rfl⟩
  obtain ⟨c, hc, hcall, hid⟩ : ∃ c ∈ (create.run sampleReads).calls,
      c.lockCall = some ⟨⟨1, ⟨[98], []⟩, .shared⟩, .entering 5000⟩ ∧ c.transactionId = 1 := by
    refine ⟨⟨1, ⟨[98], []⟩, .read, .acquiring ⟨⟨1, ⟨[98], []⟩, .shared⟩, .entering 5000⟩⟩, ?_, rfl,
      rfl⟩
    exact List.mem_of_getElem? (i := 1) rfl
  have hjustified := (refusals_justified sampleReads).1 c hc _ _ hcall hrefused
  rw [hid] at hjustified
  exact ⟨hrefused, hjustified.2⟩

end TransactionSystem

end QcDatabase
