/-
# Deadlocks that detection misses

A set of transactions is deadlocked when each of them sleeps in `acquire_lock`,
blocked by a lock of another one (`LockSystem.Deadlocked`).  The wait graph is
acyclic, so there is no such set as long as every sleeping call has an edge to
everybody who blocks it (`LockSystem.Recorded`).

The code does not keep it that way: a request gets an edge to one of its
blockers only, a sleeping call gets none to a transaction that is granted a lock
meanwhile, and a transaction loses edges that another one of its calls still
needs.  `KeepsEdges` excludes these steps, and `no_undetected_deadlock` is the
result.
-/
import QcDatabase.Transaction.DeadlockDetection

open Relation UnorderedMap StepRun

namespace QcDatabase

/-- A lock for the first request blocks the second one. -/
def LockRequest.Excludes (r r' : LockRequest) : Prop :=
  r.transactionId ≠ r'.transactionId ∧ r.key = r'.key ∧ isLockCompatible r.type r'.type = false

instance (r r' : LockRequest) : Decidable (r.Excludes r') :=
  inferInstanceAs (Decidable (_ ∧ _))

/-! ## Who blocks whom after a step -/

namespace DefaultLockManager

variable {m : DefaultLockManager} {r r' : LockRequest} {holder : TransactionId}

theorem blocks_of_grant {now : TimePoint} {timeout : Milliseconds}
    (h : (m.grant r now timeout).Blocks holder r') :
    m.Blocks holder r' ∨ holder = r.transactionId ∧ r.Excludes r' := by
  obtain ⟨id, l, hl, hholder, hconflict⟩ := h
  rcases lookup_grant hl with ⟨rfl, rfl⟩ | ⟨-, hold⟩
  · exact Or.inr ⟨hholder.symm, hconflict⟩
  · exact Or.inl ⟨id, l, hold, hholder, hconflict⟩

theorem waitsFor_grant {now : TimePoint} {timeout : Milliseconds} {x y : TransactionId}
    (hx : x ≠ r.transactionId) (hxy : m.WaitsFor x y) : (m.grant r now timeout).WaitsFor x y := by
  show y ∈ bucket (m.waitGraph.erase r.transactionId) x
  rw [bucket_erase, if_neg hx]
  exact hxy

theorem blocks_of_releaseLock {id : LockId} (h : (m.releaseLock id).2.Blocks holder r') :
    m.Blocks holder r' := by
  obtain ⟨id', l, hl, hrest⟩ := h
  exact ⟨id', l, (lookup_releaseLock.mp hl).2, hrest⟩

theorem WellFormed.blocks_of_releaseAllLocks (h : m.WellFormed) {i : IterationOrder}
    {tx : TransactionId} (hblocks : (m.releaseAllLocks i tx).2.Blocks holder r') :
    m.Blocks holder r' := by
  obtain ⟨id, l, hl, hrest⟩ := hblocks
  exact ⟨id, l, (h.lookup_releaseAllLocks.mp hl).2, hrest⟩

/-- Only the transaction whose locks are released loses edges. -/
theorem waitsFor_releaseAllLocks {i : IterationOrder} {tx x y : TransactionId}
    (hx : x = tx → m.transactionLocks.lookup tx = none) (hxy : m.WaitsFor x y) :
    (m.releaseAllLocks i tx).2.WaitsFor x y := by
  rw [releaseAllLocks]
  rcases hids : m.transactionLocks.lookup tx with _ | ids
  · exact hxy
  · have hne : x ≠ tx := by
      intro heq
      rw [hx heq] at hids
      cases hids
    show y ∈ bucket ((m.releaseLocks (i.order ids)).waitGraph.erase tx) x
    rw [bucket_erase, if_neg hne, waitGraph_releaseLocks]
    exact hxy

end DefaultLockManager

namespace LockSystem

/-! ## Deadlocks and edges -/

/-- The transactions all sleep in `acquire_lock`, each of them blocked by a lock
that another one of them holds. -/
def Deadlocked (s : LockSystem) (stuck : Set TransactionId) : Prop :=
  stuck.Nonempty ∧ ∀ x ∈ stuck, ∃ c ∈ s.calls, c.isWaiting = true ∧
    c.request.transactionId = x ∧ ∃ y ∈ stuck, s.manager.Blocks y c.request

/-- Every sleeping call has an edge to everybody who blocks it. -/
def Recorded (s : LockSystem) : Prop :=
  ∀ c ∈ s.calls, c.isWaiting = true → ∀ y, s.manager.Blocks y c.request →
    s.manager.WaitsFor c.request.transactionId y

/-- **No deadlock without its edges.** -/
theorem Recorded.not_deadlocked {s : LockSystem} (h : s.Recorded)
    (hacyclic : Acyclic s.manager.WaitsFor) (stuck : Set TransactionId) : ¬ s.Deadlocked stuck := by
  rintro ⟨hne, hstuck⟩
  have hfinite : stuck.Finite := by
    apply (List.finite_toSet (s.calls.map fun c => c.request.transactionId)).subset
    intro x hx
    obtain ⟨c, hc, -, rfl, -⟩ := hstuck x hx
    exact List.mem_map.mpr ⟨c, hc, rfl⟩
  obtain ⟨x, hx, hsink⟩ := hacyclic.exists_sink hfinite hne
  obtain ⟨c, hc, hwaiting, rfl, y, hy, hblocks⟩ := hstuck x hx
  exact hsink y hy (h c hc hwaiting y hblocks)

/-! ## The steps that keep the edges -/

/-- `holder` blocks a sleeping call of the transaction. -/
def BlocksSleeper (s : LockSystem) (calls : List LockCall) (tx holder : TransactionId) : Prop :=
  ∃ c ∈ calls, c.isWaiting = true ∧ c.request.transactionId = tx ∧ s.manager.Blocks holder c.request

/-- The request has an edge to everybody who blocks it when it goes to sleep, the
one to `existing` included. -/
def EdgesToAll (s : LockSystem) (r : LockRequest) (existing : LockInfo) : Prop :=
  ∀ y, s.manager.Blocks y r → y = existing.transactionId ∨ s.manager.WaitsFor r.transactionId y

/-- The other calls that sleep, before a lock for `r` is granted: those of its
transaction are not blocked, and those the lock will block have an edge to it. -/
def GrantKeepsEdges (s : LockSystem) (others : List LockCall) (r : LockRequest) : Prop :=
  (∀ y, ¬ s.BlocksSleeper others r.transactionId y) ∧
    ∀ c ∈ others, c.isWaiting = true → r.Excludes c.request →
      s.manager.WaitsFor c.request.transactionId r.transactionId

/-- A stretch of the `n`-th call takes no edge from another sleeping call that
needs it, and leaves none out. -/
def StretchKeepsEdges (s : LockSystem) (n : ℕ) (c : LockCall) (moment : Moment) : Prop :=
  match c.phase with
  | .entering _ =>
      match s.manager.firstConflict c.request (s.manager.keyLocks.bucket c.request.key) with
      | none => s.GrantKeepsEdges (s.calls.eraseIdx n) c.request
      | some existing =>
          if (s.manager.addWait c.request.transactionId existing.transactionId).findCycleInWaitGraph
              moment.order c.request.transactionId ≠ [] then
            ¬ s.BlocksSleeper (s.calls.eraseIdx n) c.request.transactionId existing.transactionId
          else s.EdgesToAll c.request existing
  | .waiting existing deadline =>
      deadline < moment.now →
        ¬ s.BlocksSleeper (s.calls.eraseIdx n) c.request.transactionId
          (LockCall.holder s.manager existing moment.dangling)

/-- The step takes no edge from a sleeping call that needs it, and leaves none
out. -/
def KeepsEdges (s : LockSystem) : LockAction → Prop
  | .acquireLock _ _ => True
  | .advance n moment => ∀ c, s.calls[n]? = some c → s.StretchKeepsEdges n c moment
  | .releaseLock _ => True
  | .releaseAllLocks _ tx =>
      s.manager.transactionLocks.lookup tx = none ∨ ∀ y, ¬ s.BlocksSleeper s.calls tx y

/-! ## The condition can be computed -/

section

variable {s : LockSystem} {calls : List LockCall} {r : LockRequest}

instance (x y : TransactionId) : Decidable (s.manager.WaitsFor x y) :=
  inferInstanceAs (Decidable (y ∈ s.manager.waitsFor x))

instance (tx holder : TransactionId) : Decidable (s.BlocksSleeper calls tx holder) :=
  inferInstanceAs (Decidable (∃ c ∈ calls, _))

theorem forall_blocks_iff {P : TransactionId → Prop} :
    (∀ y, s.manager.Blocks y r → P y) ↔
      ∀ e ∈ s.manager.locks.entries, r.Conflicts e.2 → P e.2.transactionId := by
  constructor
  · intro h e he hconflict
    exact h _ (DefaultLockManager.blocks_iff_entries.mpr ⟨e, he, rfl, hconflict⟩)
  · intro h y hblocks
    obtain ⟨e, he, rfl, hconflict⟩ := DefaultLockManager.blocks_iff_entries.mp hblocks
    exact h e he hconflict

theorem forall_not_blocksSleeper_iff {tx : TransactionId} :
    (∀ y, ¬ s.BlocksSleeper calls tx y) ↔
      ∀ c ∈ calls, c.isWaiting = true → c.request.transactionId = tx →
        ∀ e ∈ s.manager.locks.entries, ¬ c.request.Conflicts e.2 := by
  constructor
  · intro h c hc hwaiting htx
    exact forall_blocks_iff.mp fun y hblocks => h y ⟨c, hc, hwaiting, htx, hblocks⟩
  · rintro h y ⟨c, hc, hwaiting, htx, hblocks⟩
    exact (forall_blocks_iff (P := fun _ => False)).mpr (h c hc hwaiting htx) y hblocks

instance (tx : TransactionId) : Decidable (∀ y, ¬ s.BlocksSleeper calls tx y) :=
  decidable_of_iff _ forall_not_blocksSleeper_iff.symm

instance (existing : LockInfo) : Decidable (s.EdgesToAll r existing) :=
  decidable_of_iff _ forall_blocks_iff.symm

instance : Decidable (s.GrantKeepsEdges calls r) := inferInstanceAs (Decidable (_ ∧ _))

instance (n : ℕ) (c : LockCall) (moment : Moment) : Decidable (s.StretchKeepsEdges n c moment) :=
  match c with
  | ⟨r, .entering timeout⟩ =>
      match hfirst : s.manager.firstConflict r (s.manager.keyLocks.bucket r.key) with
      | none => decidable_of_iff (s.GrantKeepsEdges (s.calls.eraseIdx n) r)
          (by simp only [StretchKeepsEdges, hfirst])
      | some existing => decidable_of_iff
          (if (s.manager.addWait r.transactionId existing.transactionId).findCycleInWaitGraph
              moment.order r.transactionId ≠ [] then
            ¬ s.BlocksSleeper (s.calls.eraseIdx n) r.transactionId existing.transactionId
          else s.EdgesToAll r existing)
          (by simp only [StretchKeepsEdges, hfirst])
  | ⟨_, .waiting _ _⟩ => inferInstanceAs (Decidable (_ → ¬ _))

instance (action : LockAction) : Decidable (s.KeepsEdges action) :=
  match action with
  | .acquireLock _ _ => inferInstanceAs (Decidable True)
  | .advance n moment => inferInstanceAs (Decidable (∀ c ∈ s.calls[n]?, s.StretchKeepsEdges n c moment))
  | .releaseLock _ => inferInstanceAs (Decidable True)
  | .releaseAllLocks _ _ => inferInstanceAs (Decidable (_ ∨ _))

end

/-! ## The edges are kept -/

section

variable {s : LockSystem} {n : ℕ} {c : LockCall}

/-- After a grant. -/
theorem Recorded.grant (h : s.Recorded)
    (hkeep : s.GrantKeepsEdges (s.calls.eraseIdx n) c.request) (now : TimePoint)
    (timeout : Milliseconds) :
    Recorded ⟨s.manager.grant c.request now timeout, s.calls.eraseIdx n⟩ := by
  intro c' hc' hwaiting y hblocks
  rcases DefaultLockManager.blocks_of_grant hblocks with hold | ⟨rfl, hexcludes⟩
  · -- an old lock: its edge is not one of those that the grant removes
    have hedge := h c' (List.mem_of_mem_eraseIdx hc') hwaiting y hold
    have hne : c'.request.transactionId ≠ c.request.transactionId := by
      intro heq
      exact hkeep.1 y ⟨c', hc', hwaiting, heq, hold⟩
    exact DefaultLockManager.waitsFor_grant hne hedge
  · -- the new lock
    exact DefaultLockManager.waitsFor_grant hexcludes.1.symm
      (hkeep.2 c' hc' hwaiting hexcludes)

/-- After an edge of the call's transaction was dropped with the call. -/
theorem Recorded.dropWait (h : s.Recorded) {holder : TransactionId}
    {manager : DefaultLockManager} (hlocks : manager.locks = s.manager.locks)
    (hedges : ∀ x y, s.manager.WaitsFor x y → ¬ (x = c.request.transactionId ∧ y = holder) →
      manager.WaitsFor x y)
    (hkeep : ¬ s.BlocksSleeper (s.calls.eraseIdx n) c.request.transactionId holder) :
    Recorded ⟨manager, s.calls.eraseIdx n⟩ := by
  intro c' hc' hwaiting y hblocks
  have hold : s.manager.Blocks y c'.request := by
    rwa [DefaultLockManager.Blocks, hlocks] at hblocks
  apply hedges _ _ (h c' (List.mem_of_mem_eraseIdx hc') hwaiting y hold)
  rintro ⟨htx, rfl⟩
  exact hkeep ⟨c', hc', hwaiting, htx, hold⟩

/-- After a request went to sleep. -/
theorem Recorded.addWait (h : s.Recorded) {existing : LockInfo} (deadline : TimePoint)
    (hkeep : s.EdgesToAll c.request existing) :
    Recorded ⟨s.manager.addWait c.request.transactionId existing.transactionId,
      s.calls.set n ⟨c.request, .waiting existing deadline⟩⟩ := by
  intro c' hc' hwaiting y hblocks
  have hold : s.manager.Blocks y c'.request := hblocks
  apply DefaultLockManager.waitsFor_addWait.mpr
  rcases List.mem_or_eq_of_mem_set hc' with hc' | rfl
  · exact Or.inl (h c' hc' hwaiting y hold)
  · rcases hkeep y hold with rfl | hedge
    · exact Or.inr ⟨rfl, rfl⟩
    · exact Or.inl hedge

/-- After a sleeper woke up to try again. -/
theorem Recorded.retry (h : s.Recorded) (timeout : Milliseconds) :
    Recorded ⟨s.manager, s.calls.set n ⟨c.request, .entering timeout⟩⟩ := by
  intro c' hc' hwaiting y hblocks
  rcases List.mem_or_eq_of_mem_set hc' with hc' | rfl
  · exact h c' hc' hwaiting y hblocks
  · cases hwaiting

theorem Recorded.advance (h : s.Recorded) (hc : s.calls[n]? = some c) {moment : Moment}
    (hkeep : s.StretchKeepsEdges n c moment) : (s.step (.advance n moment)).Recorded := by
  rw [step, hc]
  rw [StretchKeepsEdges] at hkeep
  dsimp only
  rw [LockCall.advance]
  rcases hphase : c.phase with timeout | ⟨existing, deadline⟩
  · rw [hphase] at hkeep
    dsimp only at hkeep ⊢
    rw [DefaultLockManager.acquireLock]
    rcases hfirst : s.manager.firstConflict c.request
      (s.manager.keyLocks.bucket c.request.key) with _ | existing
    · rw [hfirst] at hkeep
      exact h.grant hkeep moment.now timeout
    · rw [hfirst] at hkeep
      dsimp only at hkeep ⊢
      split_ifs at hkeep ⊢ with hcycle
      · -- refused: the edge is inserted for the search and removed after it
        refine h.dropWait rfl ?_ hkeep
        intro x y hxy hne
        exact DefaultLockManager.waitsFor_dropWait.mpr
          ⟨DefaultLockManager.waitsFor_addWait.mpr (Or.inl hxy), hne⟩
      · exact h.addWait _ hkeep
  · rw [hphase] at hkeep
    dsimp only at hkeep ⊢
    split_ifs with hlate
    · refine h.dropWait rfl ?_ (hkeep hlate)
      intro x y hxy hne
      exact DefaultLockManager.waitsFor_dropWait.mpr ⟨hxy, hne⟩
    · exact h.retry _

/-- **Step lemma.**  The steps with `KeepsEdges` keep the edges. -/
theorem Recorded.step (h : s.Recorded) (hlocks : s.manager.WellFormed) {action : LockAction}
    (hkeep : s.KeepsEdges action) : (s.step action).Recorded := by
  cases action with
  | acquireLock request timeout =>
      intro c hc hwaiting y hblocks
      rcases List.mem_append.mp hc with hc | hc
      · exact h c hc hwaiting y hblocks
      · rw [List.mem_singleton.mp hc] at hwaiting
        cases hwaiting
  | advance n moment =>
      rcases hc : s.calls[n]? with _ | c
      · rw [LockSystem.step, hc]
        exact h
      · exact h.advance hc (hkeep c hc)
  | releaseLock id =>
      intro c hc hwaiting y hblocks
      have hedge := h c hc hwaiting y (DefaultLockManager.blocks_of_releaseLock hblocks)
      show y ∈ bucket (s.manager.releaseLock id).2.waitGraph _
      rw [DefaultLockManager.waitGraph_releaseLock]
      exact hedge
  | releaseAllLocks order tx =>
      intro c hc hwaiting y hblocks
      have hold := hlocks.blocks_of_releaseAllLocks hblocks
      apply DefaultLockManager.waitsFor_releaseAllLocks _ (h c hc hwaiting y hold)
      intro htx
      exact hkeep.resolve_right fun hfree => hfree y ⟨c, hc, hwaiting, htx, hold⟩

end

theorem run_recorded {actions : List LockAction} (h : Along step KeepsEdges create actions) :
    (create.run actions).Recorded := by
  have hrun := h.invariant (fun s => s.manager.WellFormed ∧ s.Recorded) ?_
    ⟨DefaultLockManager.wellFormed_create, fun c hc => absurd hc List.not_mem_nil⟩
  · exact hrun.2
  · rintro s action ⟨hlocks, hrecorded⟩ hkeep
    exact ⟨step_wellFormed hlocks action, hrecorded.step hlocks hkeep⟩

/-! ## The request that closes a deadlock -/

/-- A deadlock needs the blocked sleepers only. -/
theorem Deadlocked.of_sleepers {m m' : DefaultLockManager} {calls calls' : List LockCall}
    {stuck : Set TransactionId} (h : Deadlocked ⟨m, calls⟩ stuck)
    (hblocks : ∀ y r, m.Blocks y r → m'.Blocks y r)
    (hcalls : ∀ c ∈ calls, c.isWaiting = true → ∀ y, m.Blocks y c.request →
      ∃ c' ∈ calls', c'.isWaiting = true ∧ c'.request = c.request) :
    Deadlocked ⟨m', calls'⟩ stuck := by
  refine ⟨h.1, ?_⟩
  intro x hx
  obtain ⟨c, hc, hwaiting, htx, y, hy, hblocked⟩ := h.2 x hx
  obtain ⟨c', hc', hwaiting', hrequest⟩ := hcalls c hc hwaiting y hblocked
  exact ⟨c', hc', hwaiting', by rw [hrequest, htx], y, hy, hblocks y _ (hrequest ▸ hblocked)⟩

/-- **A request that would close a deadlock is refused**, if the system has no
deadlock before and after its stretch. -/
theorem refused_of_closes {s : LockSystem} (hlocks : s.manager.WellFormed) {n : ℕ}
    {moment : Moment} (hbefore : ∀ stuck, ¬ s.Deadlocked stuck)
    (hafter : ∀ stuck, ¬ (s.step (.advance n moment)).Deadlocked stuck) {c : LockCall}
    (hc : s.calls[n]? = some c) {timeout : Milliseconds} (hphase : c.phase = .entering timeout)
    {existing : LockInfo} {deadline : TimePoint} {stuck : Set TransactionId}
    (hcloses : Deadlocked ⟨s.manager, s.calls.set n ⟨c.request, .waiting existing deadline⟩⟩ stuck) :
    (c.advance s.manager moment).1
      = .inl (.error (DefaultLockManager.deadlockDetected c.request.transactionId)) := by
  have hstep := hafter stuck
  rw [step, hc] at hstep
  dsimp only at hstep
  rw [LockCall.advance, hphase] at hstep ⊢
  dsimp only at hstep ⊢
  rw [DefaultLockManager.acquireLock] at hstep ⊢
  rcases hfirst : s.manager.firstConflict c.request
    (s.manager.keyLocks.bucket c.request.key) with _ | first
  · -- nobody blocks the request, so the deadlock was there before
    refine absurd (hcloses.of_sleepers (fun _ _ hblocks => hblocks) ?_) (hbefore stuck)
    intro c' hc' hwaiting y hblocks
    rcases List.mem_or_eq_of_mem_set hc' with hold | rfl
    · exact ⟨c', hold, hwaiting, rfl⟩
    · exact absurd hblocks (hlocks.not_blocks_of_firstConflict hfirst y)
  · rw [hfirst] at hstep
    dsimp only at hstep ⊢
    split_ifs at hstep ⊢ with hcycle
    · rfl
    · -- the request went to sleep
      refine absurd (hcloses.of_sleepers (fun _ _ hblocks => hblocks) ?_) hstep
      intro c' hc' hwaiting y hblocks
      obtain ⟨k, hk⟩ := List.mem_iff_getElem?.mp hc'
      rw [List.getElem?_set] at hk
      -- the sleeper is the request itself or an older one
      by_cases hkn : n = k
      · subst hkn
        have hlength : n < s.calls.length := (List.getElem?_eq_some_iff.mp hc).1
        rw [if_pos rfl, if_pos hlength] at hk
        obtain rfl := Option.some.inj hk
        exact ⟨_, List.mem_set hlength _, rfl, rfl⟩
      · rw [if_neg hkn] at hk
        refine ⟨c', List.mem_iff_getElem?.mpr ⟨k, ?_⟩, hwaiting, rfl⟩
        rw [List.getElem?_set, if_neg hkn]
        exact hk

/-- **No deadlock goes undetected while all edges are kept**: in a run whose
steps neither take an edge from a blocked sleeper nor leave one out, there is no
deadlock in any state, and the request that would close one is refused. -/
theorem no_undetected_deadlock (actions : List LockAction)
    (h : Along step KeepsEdges create actions) :
    (∀ before, before <+: actions → ∀ stuck, ¬ (create.run before).Deadlocked stuck) ∧
      ∀ before n moment after c timeout existing deadline stuck,
        actions = before ++ .advance n moment :: after →
        (create.run before).calls[n]? = some c → c.phase = .entering timeout →
        Deadlocked ⟨(create.run before).manager,
          (create.run before).calls.set n ⟨c.request, .waiting existing deadline⟩⟩ stuck →
        (c.advance (create.run before).manager moment).1
          = .inl (.error (DefaultLockManager.deadlockDetected c.request.transactionId)) := by
  have hnone : ∀ before, before <+: actions →
      ∀ stuck, ¬ (create.run before).Deadlocked stuck := by
    rintro before ⟨after, rfl⟩ stuck
    exact (run_recorded h.append_left).not_deadlocked (run_acyclic before) stuck
  refine ⟨hnone, ?_⟩
  rintro before n moment after c timeout existing deadline stuck rfl hc hphase hcloses
  refine refused_of_closes (run_wellFormed DefaultLockManager.wellFormed_create before)
    (hnone before (List.prefix_append _ _)) ?_ hc hphase hcloses
  have hstep := hnone (before ++ [.advance n moment]) (by simp)
  rwa [run, List.foldl_append, List.foldl_cons, List.foldl_nil] at hstep

/-- Two transactions that sleep, each of them blocked by the other. -/
theorem deadlocked_pair {s : LockSystem} {x y : TransactionId}
    (h : ∀ z ∈ [x, y], ∃ c ∈ s.calls, c.isWaiting = true ∧ c.request.transactionId = z ∧
      ∃ w ∈ [x, y], s.manager.Blocks w c.request) : s.Deadlocked {x, y} := by
  refine ⟨⟨x, Or.inl rfl⟩, ?_⟩
  intro z hz
  obtain ⟨c, hc, hwaiting, htx, w, hw, hblocks⟩ := h z (by simpa using hz)
  exact ⟨c, hc, hwaiting, htx, w, by simpa using hw, hblocks⟩

/-- Two readers of a key, a writer that waits for the first of them, and a
request of the second reader for the writer's key. -/
def sampleReaders : List LockAction :=
  [.acquireLock ⟨1, ⟨[97], []⟩, .shared⟩ 5000, .advance 0 sampleMoment,
    .acquireLock ⟨2, ⟨[97], []⟩, .shared⟩ 5000, .advance 0 sampleMoment,
    .acquireLock ⟨3, ⟨[98], []⟩, .exclusive⟩ 5000, .advance 0 sampleMoment,
    .acquireLock ⟨3, ⟨[97], []⟩, .exclusive⟩ 5000, .advance 0 sampleMoment,
    .acquireLock ⟨2, ⟨[98], []⟩, .shared⟩ 5000, .advance 1 sampleMoment]

/-- **A deadlock that nobody detects**: the writer has no edge to the second
reader. -/
theorem deadlock_undetected : (create.run sampleReaders).Deadlocked {2, 3} := by
  apply deadlocked_pair
  decide +kernel

/-- The lock of the second transaction in the run with two keys. -/
def sampleHolder : LockInfo := ⟨"lock_2", .exclusive, 2, ⟨[98], []⟩, 0, 5000⟩

/-- In the run with two keys every edge is kept, so the request that would close
the deadlock is refused. -/
theorem no_undetected_deadlock_sampleWaiting :
    let s := create.run (sampleWaiting ++ [.acquireLock sampleClosing.request 5000])
    (∀ stuck, ¬ s.Deadlocked stuck) ∧
      Deadlocked ⟨s.manager, s.calls.set 1 ⟨sampleClosing.request, .waiting sampleHolder 5⟩⟩ {1, 2} ∧
      (sampleClosing.advance s.manager sampleMoment).1
        = .inl (.error (DefaultLockManager.deadlockDetected 1)) := by
  intro s
  have hkeeps : Along step KeepsEdges create
      (sampleWaiting ++ .acquireLock sampleClosing.request 5000 :: [.advance 1 sampleMoment]) := by
    decide +kernel
  obtain ⟨hnone, hrefused⟩ := no_undetected_deadlock _ hkeeps
  have hcall : s.calls[1]? = some sampleClosing := by decide +kernel
  have hcloses : Deadlocked
      ⟨s.manager, s.calls.set 1 ⟨sampleClosing.request, .waiting sampleHolder 5⟩⟩ {1, 2} := by
    apply deadlocked_pair
    decide +kernel
  refine ⟨hnone _ ⟨[.advance 1 sampleMoment], List.append_cons sampleWaiting _ _ |>.symm⟩, hcloses, ?_⟩
  exact hrefused _ 1 sampleMoment [] sampleClosing 5000 sampleHolder 5 {1, 2}
    (List.append_cons sampleWaiting _ _) hcall rfl hcloses

end LockSystem

end QcDatabase
