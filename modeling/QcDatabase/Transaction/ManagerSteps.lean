/-
# What a step of the system does to the manager

Whatever happens next, the manager settles transactions one after the other,
begins a transaction, makes a stretch of `acquire_lock` for a transaction that
is there, or takes the locks of a deadlock's victim (`ManagerStep`).  The last
never happens, since no pass of the deadlock-detection thread finds a cycle
(`Quiet.run`).

So a transaction that is over stays over (`ManagerStep.gone`), and a lock
that a transaction holds it holds until it is over (`ManagerStep.holds_or_gone`).
-/
import QcDatabase.Transaction.SystemInvariant

open Relation UnorderedMap

namespace QcDatabase

namespace DefaultTransactionManager

/-- What a step can do to the manager, when `deadlocks` are to be resolved. -/
inductive ManagerStep (deadlocks : List (List TransactionId)) (m : DefaultTransactionManager) :
    DefaultTransactionManager → Prop
  | settles {m' : DefaultTransactionManager} (h : ReflTransGen Settles m m') :
      ManagerStep deadlocks m m'
  | begins (isolation : IsolationLevel) (now : TimePoint) :
      ManagerStep deadlocks m (m.beginTransaction isolation now).2
  | stretch {c : LockCall} {i : IterationOrder} {result : Result LockId ⊕ LockCall}
      {lockManager : DefaultLockManager} (hlive : c.request.transactionId ∈ m.transactions)
      (h : c.Stretch m.lockManager i result lockManager) :
      ManagerStep deadlocks m { m with lockManager := lockManager }
  | resolves (order : IterationOrder) {cycle : List TransactionId} (h : cycle ∈ deadlocks) :
      ManagerStep deadlocks m
        { m with lockManager := (m.lockManager.resolveDeadlock order cycle).2 }

theorem ManagerStep.same (deadlocks : List (List TransactionId)) (m : DefaultTransactionManager) :
    ManagerStep deadlocks m m :=
  ManagerStep.settles ReflTransGen.refl

/-- What holds `mutex_` exclusively settles transactions or begins one. -/
theorem managerStep_managerFunction (deadlocks : List (List TransactionId))
    (m : DefaultTransactionManager) {action : TransactionAction}
    {f : DefaultTransactionManager → DefaultTransactionManager}
    (hf : action.managerFunction = some f) : ManagerStep deadlocks m (f m) := by
  by_cases hbegins : ∃ isolation now, action = .beginTransaction isolation now
  · obtain ⟨isolation, now, rfl⟩ := hbegins
    cases hf
    exact ManagerStep.begins isolation now
  · apply ManagerStep.settles
    apply invariant_of_managerFunction (ReflTransGen Settles m) _ _ hf ReflTransGen.refl
    · exact fun _ _ hsettled hsettles => hsettled.tail hsettles
    · intro isolation now haction
      exact absurd ⟨isolation, now, haction⟩ hbegins

section

variable {m m' : DefaultTransactionManager} {deadlocks : List (List TransactionId)}
  {t : TransactionId}

/-- What holds of a sound manager and survives settling holds after any settling. -/
theorem Sound.of_settled (P : DefaultTransactionManager → Prop) (h : m.Sound)
    (hsettled : ReflTransGen Settles m m')
    (hstep : ∀ m m', m.Sound → Settles m m' → P m → P m') (hm : P m) : P m' := by
  have hboth : m'.Sound ∧ P m' := by
    induction hsettled with
    | refl => exact ⟨h, hm⟩
    | tail _ hlast ih => exact ⟨ih.1.settles hlast, hstep _ _ ih.1 hlast ih.2⟩
  exact hboth.2

/-- A new transaction is none of those there were. -/
theorem Gone.beginTransaction (ht : m.Gone t) (isolation : IsolationLevel) (now : TimePoint) :
    (m.beginTransaction isolation now).2.Gone t := by
  rw [DefaultTransactionManager.beginTransaction]
  split_ifs with hrunning
  · exact ht
  · refine ⟨Nat.lt_succ_of_lt ht.known, ?_, ht.unlocked⟩
    intro hin
    rcases (AList.mem_insert _).mp hin with rfl | hin
    · exact absurd ht.known (lt_irrefl _)
    · exact ht.erased hin

/-- Who is not there gets no lock. -/
theorem Gone.stretch (ht : m.Gone t) {c : LockCall} {i : IterationOrder}
    {result : Result LockId ⊕ LockCall} {lockManager : DefaultLockManager}
    (hlive : c.request.transactionId ∈ m.transactions)
    (h : c.Stretch m.lockManager i result lockManager) :
    Gone { m with lockManager := lockManager } t := by
  refine ⟨ht.known, ht.erased, ?_⟩
  intro id l hl
  rcases DefaultLockManager.lookup_stretch h hl with hown | hold
  · rw [hown]
    rintro rfl
    exact ht.erased hlive
  · exact ht.unlocked id l hold

theorem lookup_resolveDeadlock (h : m.lockManager.WellFormed) {order : IterationOrder}
    {cycle : List TransactionId} {id : LockId} {l : LockInfo}
    (hl : (m.lockManager.resolveDeadlock order cycle).2.locks.lookup id = some l) :
    m.lockManager.locks.lookup id = some l := by
  unfold DefaultLockManager.resolveDeadlock at hl
  cases hvictim : cycle.max? with
  | none =>
      rw [hvictim] at hl
      exact hl
  | some victim =>
      rw [hvictim] at hl
      exact (h.lookup_releaseAllLocks.mp hl).2

/-- **A transaction that is over stays over.** -/
theorem ManagerStep.gone (hstep : ManagerStep deadlocks m m') (h : m.Sound) (ht : m.Gone t) :
    m'.Gone t := by
  cases hstep with
  | settles hsettled =>
      exact h.of_settled (Gone · t) hsettled (fun _ _ hm hsettles ht => ht.settles hsettles hm.locks) ht
  | begins isolation now => exact ht.beginTransaction isolation now
  | stretch hlive hstretch => exact ht.stretch hlive hstretch
  | resolves order _ =>
      exact ⟨ht.known, ht.erased, fun id l hl => ht.unlocked id l (lookup_resolveDeadlock h.locks hl)⟩

/-- The counter for transaction ids never goes back. -/
theorem ManagerStep.nextTransactionId_le (hstep : ManagerStep deadlocks m m') (h : m.Sound) :
    m.nextTransactionId ≤ m'.nextTransactionId := by
  cases hstep with
  | settles hsettled =>
      apply h.of_settled (m.nextTransactionId ≤ ·.nextTransactionId) hsettled _ (le_refl _)
      intro m₁ m₂ _ hsettles hle
      rw [hsettles.next]
      exact hle
  | begins isolation now =>
      unfold DefaultTransactionManager.beginTransaction
      split_ifs
      · exact le_refl _
      · exact Nat.le_succ _
  | stretch => exact le_refl _
  | resolves => exact le_refl _

/-- **A lock is held until its transaction is over**, if there is no deadlock to resolve. -/
theorem ManagerStep.holds_or_gone (hstep : ManagerStep [] m m') (h : m.Sound)
    (ht : t < m.nextTransactionId) {key : MultiLevelKey} {type : OperationType}
    (hholds : m.lockManager.Holds t key type) :
    m'.lockManager.Holds t key type ∨ m'.Gone t := by
  cases hstep with
  | settles hsettled =>
      have hboth : t < m'.nextTransactionId ∧
          (m'.lockManager.Holds t key type ∨ m'.Gone t) := by
        apply h.of_settled
          (fun m => t < m.nextTransactionId ∧ (m.lockManager.Holds t key type ∨ m.Gone t))
          hsettled _ ⟨ht, Or.inl hholds⟩
        rintro m₁ m₂ hm hsettles ⟨hknown, hheld | hgone⟩
        · exact ⟨hsettles.next ▸ hknown, hsettles.holds_or_gone hm.locks hknown hheld⟩
        · exact ⟨hsettles.next ▸ hknown, Or.inr (hgone.settles hsettles hm.locks)⟩
      exact hboth.2
  | begins isolation now =>
      apply Or.inl
      unfold DefaultTransactionManager.beginTransaction
      split_ifs
      · exact hholds
      · exact hholds
  | stretch hlive hstretch => exact Or.inl (h.locks.holds_of_stretch hstretch hholds)
  | resolves order hcycle => cases hcycle

/-- **No step closes a cycle of the wait graph.** -/
theorem ManagerStep.acyclic (hstep : ManagerStep [] m m') (h : m.Sound)
    (hwaits : Acyclic m.lockManager.WaitsFor) : Acyclic m'.lockManager.WaitsFor := by
  cases hstep with
  | settles hsettled =>
      apply h.of_settled (Acyclic ·.lockManager.WaitsFor) hsettled _ hwaits
      intro m₁ m₂ _ hsettles hacyclic
      rcases hsettles.locks with hsame | ⟨i, ended, hreleased, -⟩
      · rw [hsame]
        exact hacyclic
      · rw [hreleased]
        exact DefaultLockManager.acyclic_releaseAllLocks hacyclic ended
  | begins isolation now =>
      unfold DefaultTransactionManager.beginTransaction
      split_ifs
      · exact hwaits
      · exact hwaits
  | stretch hlive hstretch => exact DefaultLockManager.acyclic_of_stretch hwaits hstretch
  | resolves order hcycle => cases hcycle

end

end DefaultTransactionManager

namespace TransactionSystem

variable {s : TransactionSystem}

/-- **Every step is a step of the manager.** -/
theorem managerStep (h : SystemInv s) (action : TransactionAction) :
    DefaultTransactionManager.ManagerStep s.deadlocks s.manager (s.step action).manager := by
  rcases hfunction : action.managerFunction with _ | f
  · cases action with
    | call now id key operation =>
        rcases s.enter_cases now id key operation with hsame | ⟨c, -, -, hafter⟩
        · rw [step, hsame]
          exact .same _ _
        · rw [step, hafter]
          exact .same _ _
    | acquire n moment =>
        rcases s.acquire_cases n moment with ⟨-, hsame⟩ | ⟨id, _, _, call, calls, hn, hafter, -⟩
        · rw [step, hsame]
          exact .same _ _
        · rw [step, hafter]
          have hmem := List.mem_of_getElem? hn
          refine .stretch ?_ (call.advance_stretch s.manager.lockManager moment)
          rw [h.requests _ hmem call rfl]
          exact h.live _ hmem
    | record n clock =>
        rcases s.record_cases n clock with ⟨-, hsame⟩ | ⟨_, _, _, lock, -, -, hafter⟩
        · rw [step, hsame]
          exact .same _ _
        · rw [step, hafter]
          exact .settles (ReflTransGen.single
            (DefaultTransactionManager.settles_recordOperation clock _ lock))
    | detectDeadlocks order =>
        rw [step]
        split_ifs
        · exact .same _ _
        · exact .same _ _
    | resolveDeadlock order =>
        rw [step]
        rcases s.deadlocks with _ | ⟨cycle, deadlocks⟩
        · exact .same _ _
        · exact .resolves order List.mem_cons_self
    | _ => cases hfunction
  · rw [step_of_managerFunction hfunction]
    rcases s.exclusively_cases f with ⟨-, hafter⟩ | ⟨-, hsame⟩
    · rw [hafter]
      exact DefaultTransactionManager.managerStep_managerFunction _ _ hfunction
    · rw [hsame]
      exact .same _ _

/-- Only `begin_transaction` adds a transaction. -/
theorem mem_transactions_of_step {action : TransactionAction} {t : TransactionId}
    (hnew : ∀ isolation now, action ≠ .beginTransaction isolation now)
    (ht : t ∈ (s.step action).manager.transactions) : t ∈ s.manager.transactions := by
  rcases hfunction : action.managerFunction with _ | f
  · cases action with
    | call now id key operation =>
        rw [step] at ht
        rcases s.enter_cases now id key operation with hsame | ⟨c, -, -, hafter⟩
        · rw [hsame] at ht
          exact ht
        · rw [hafter] at ht
          exact ht
    | acquire n moment =>
        rw [step] at ht
        rcases s.acquire_cases n moment with ⟨-, hsame⟩ | ⟨_, _, _, call, calls, -, hafter, -⟩
        · rw [hsame] at ht
          exact ht
        · rw [hafter] at ht
          exact ht
    | record n clock =>
        rw [step] at ht
        rcases s.record_cases n clock with ⟨-, hsame⟩ | ⟨_, _, _, lock, -, -, hafter⟩
        · rw [hsame] at ht
          exact ht
        · rw [hafter] at ht
          exact DefaultTransactionManager.mem_recordOperation.mp ht
    | detectDeadlocks order =>
        rw [step] at ht
        split_ifs at ht
        · exact ht
        · exact ht
    | resolveDeadlock order =>
        rw [step] at ht
        cases hdeadlocks : s.deadlocks with
        | nil =>
            rw [hdeadlocks] at ht
            exact ht
        | cons cycle deadlocks =>
            rw [hdeadlocks] at ht
            exact ht
    | _ => cases hfunction
  · rw [step_of_managerFunction hfunction] at ht
    rcases s.exclusively_cases f with ⟨-, hafter⟩ | ⟨-, hsame⟩
    · rw [hafter] at ht
      apply DefaultTransactionManager.invariant_of_managerFunction
        (fun m => t ∈ m.transactions → t ∈ s.manager.transactions) _ _ hfunction id ht
      · exact fun _ _ hold hsettles hin => hold (hsettles.mem_transactions hin)
      · exact fun isolation now haction => absurd haction (hnew isolation now)
    · rw [hsame] at ht
      exact ht

/-! ## There is never a deadlock to resolve -/

/-- The wait graph is acyclic and no cycle waits to be resolved. -/
structure Quiet (s : TransactionSystem) : Prop where
  system : SystemInv s
  acyclic : Acyclic s.manager.lockManager.WaitsFor
  deadlocks : s.deadlocks = []

theorem Quiet.managerStep (h : s.Quiet) (action : TransactionAction) :
    DefaultTransactionManager.ManagerStep [] s.manager (s.step action).manager := by
  rw [← h.deadlocks]
  exact TransactionSystem.managerStep h.system action

theorem Quiet.step (h : s.Quiet) (action : TransactionAction) : (s.step action).Quiet := by
  refine ⟨h.system.step action, (h.managerStep action).acyclic h.system.manager h.acyclic, ?_⟩
  have hnone := h.deadlocks
  rcases hfunction : action.managerFunction with _ | f
  · cases action with
    | call now id key operation =>
        rcases s.enter_cases now id key operation with hsame | ⟨c, -, -, hafter⟩
        · rw [TransactionSystem.step, hsame, hnone]
        · rw [TransactionSystem.step, hafter, hnone]
    | acquire n moment =>
        rcases s.acquire_cases n moment with ⟨-, hsame⟩ | ⟨_, _, _, call, calls, -, hafter, -⟩
        · rw [TransactionSystem.step, hsame, hnone]
        · rw [TransactionSystem.step, hafter, hnone]
    | record n clock =>
        rcases s.record_cases n clock with ⟨-, hsame⟩ | ⟨_, _, _, lock, -, -, hafter⟩
        · rw [TransactionSystem.step, hsame, hnone]
        · rw [TransactionSystem.step, hafter, hnone]
    | detectDeadlocks order =>
        -- the wait graph is acyclic, so the pass finds nothing
        rw [TransactionSystem.step, if_pos (List.isEmpty_iff.mpr hnone)]
        exact DefaultLockManager.detectDeadlocks_eq_nil h.acyclic
    | resolveDeadlock order =>
        rw [TransactionSystem.step, hnone]
        exact hnone
    | _ => cases hfunction
  · rw [step_of_managerFunction hfunction]
    rcases s.exclusively_cases f with ⟨-, hafter⟩ | ⟨-, hsame⟩
    · rw [hafter, hnone]
    · rw [hsame, hnone]

theorem quiet_create : create.Quiet :=
  ⟨SystemInv.create, DefaultLockManager.acyclic_create, rfl⟩

theorem Quiet.run (actions : List TransactionAction) : (create.run actions).Quiet :=
  StepRun.invariant Quiet (fun _ action h => h.step action) quiet_create actions

end TransactionSystem

end QcDatabase
