/-
# Transaction contexts (`TransactionContext`, `src/transaction/transaction_manager.cpp`)

A context is a handle on one transaction of a manager: it passes calls on until
one of its own `commit` or `abort` returns `OK`, and refuses them from then on;
its destructor aborts what is not finished.

The contexts are used beside any other calls of the manager.  What they do is a
run of the manager (`system_run`), so the results on runs hold with contexts too.
A finished context leaves nothing of its transaction behind (`Tidy`), and so does
a destructor except where `abort_transaction` refuses.  That is so where a mutex may be
locked again by its owner; as the code stands the destructor does not return where its
transaction still has a lock to release (`destroy_gone_iff`).
-/
import QcDatabase.Transaction.CommitOrder
import QcDatabase.Transaction.ExpiredTransactions
import QcDatabase.Transaction.LockDiscipline
import QcDatabase.Transaction.Notifications

open UnorderedMap

namespace QcDatabase

/-- `TransactionContext`, without the pointer to its manager. -/
structure TransactionContext where
  transactionId : TransactionId
  isCommitted : Bool
  isAborted : Bool
  deriving DecidableEq

namespace TransactionContext

/-- `TransactionContext::TransactionContext`. -/
def create (id : TransactionId) : TransactionContext := ⟨id, false, false⟩

/-- `is_committed_ || is_aborted_`. -/
def isFinished (c : TransactionContext) : Bool := c.isCommitted || c.isAborted

/-- The error of every call of a finished context. -/
def alreadyFinished : Failure := ⟨.invalidState, "Transaction is already finished"⟩

/-- The common shape of `read`, `write`, `remove` and `lock`, up to `acquire_lock`. -/
def dataOperation (c : TransactionContext) (m : DefaultTransactionManager) (now : TimePoint)
    (key : MultiLevelKey) (operation : DataOperation) : Result DataCall :=
  if c.isFinished then .error alreadyFinished
  else m.startCall now c.transactionId key operation

/-- `TransactionContext::read`. -/
def read (c : TransactionContext) (m : DefaultTransactionManager) (now : TimePoint)
    (key : MultiLevelKey) : Result DataCall :=
  c.dataOperation m now key .read

/-- `TransactionContext::write`. -/
def write (c : TransactionContext) (m : DefaultTransactionManager) (now : TimePoint)
    (key : MultiLevelKey) (value : DataEntry) : Result DataCall :=
  c.dataOperation m now key (.write value)

/-- `TransactionContext::remove`. -/
def remove (c : TransactionContext) (m : DefaultTransactionManager) (now : TimePoint)
    (key : MultiLevelKey) : Result DataCall :=
  c.dataOperation m now key .remove

/-- `TransactionContext::lock`. -/
def lock (c : TransactionContext) (m : DefaultTransactionManager) (now : TimePoint)
    (key : MultiLevelKey) (type : LockType) : Result DataCall :=
  c.dataOperation m now key (.lock type)

/-- `TransactionContext::commit`. -/
def commit (c : TransactionContext) (m : DefaultTransactionManager) (i : IterationOrder)
    (clock : ℕ → TimePoint) : Result Unit × TransactionContext × DefaultTransactionManager :=
  if c.isFinished then (.error alreadyFinished, c, m)
  else
    match m.commitTransaction i clock c.transactionId with
    | (.ok (), m) => (.ok (), { c with isCommitted := true }, m)
    | (.error failure, m) => (.error failure, c, m)

/-- `TransactionContext::abort`. -/
def abort (c : TransactionContext) (m : DefaultTransactionManager) (i : IterationOrder)
    (clock : ℕ → TimePoint) : Result Unit × TransactionContext × DefaultTransactionManager :=
  if c.isFinished then (.error alreadyFinished, c, m)
  else
    match m.abortTransaction i clock c.transactionId with
    | (.ok (), m) => (.ok (), { c with isAborted := true }, m)
    | (.error failure, m) => (.error failure, c, m)

/-- `TransactionContext::~TransactionContext`. -/
def destroy (c : TransactionContext) (m : DefaultTransactionManager) (i : IterationOrder)
    (clock : ℕ → TimePoint) : DefaultTransactionManager :=
  if !c.isCommitted && !c.isAborted then (c.abort m i clock).2.2 else m

/-- `TransactionContext::~TransactionContext`, with the events on the mutexes. -/
def destroyTraced (c : TransactionContext) (m : DefaultTransactionManager) (i : IterationOrder)
    (clock : ℕ → TimePoint) : SharedMutex.Traced ManagerMutex DefaultTransactionManager :=
  if !c.isCommitted && !c.isAborted then do
    let (_, m) ← m.abortTransactionTraced i clock c.transactionId
    return m
  else pure m

end TransactionContext

/-! ## Contexts beside other calls -/

/-- A manager in use and the contexts there are. -/
structure ContextSystem where
  system : TransactionSystem
  contexts : List TransactionContext

/-- What can happen next: any action of the manager, a new context on any id, or
a call of the `n`-th context.  `commit`, `abort` and the destructor need `mutex_`
exclusively, so they happen when no data operation is in progress. -/
inductive ContextAction where
  | manager (action : TransactionAction)
  | create (id : TransactionId)
  | dataOperation (n : ℕ) (now : TimePoint) (key : MultiLevelKey) (operation : DataOperation)
  | commit (n : ℕ) (order : IterationOrder) (clock : ℕ → TimePoint)
  | abort (n : ℕ) (order : IterationOrder) (clock : ℕ → TimePoint)
  | destroy (n : ℕ) (order : IterationOrder) (clock : ℕ → TimePoint)

namespace ContextSystem

/-- A manager nobody has used yet, and no context. -/
def create : ContextSystem := ⟨TransactionSystem.create, []⟩

/-- The system after `commit` or `abort` of the `n`-th context, given as `call`. -/
def finish (s : ContextSystem) (n : ℕ)
    (call : TransactionContext → DefaultTransactionManager →
      Result Unit × TransactionContext × DefaultTransactionManager) : ContextSystem :=
  match s.contexts[n]? with
  | none => s
  | some c =>
      if s.system.calls.isEmpty then
        let (_, c', m) := call c s.system.manager
        ⟨{ s.system with manager := m }, s.contexts.set n c'⟩
      else s

/-- The system after an action. -/
def step (s : ContextSystem) : ContextAction → ContextSystem
  | .manager action => { s with system := s.system.step action }
  | .create id => { s with contexts := s.contexts ++ [TransactionContext.create id] }
  | .dataOperation n now key operation =>
      match s.contexts[n]? with
      | none => s
      | some c =>
          if s.system.mutexFree operation then
            match c.dataOperation s.system.manager now key operation with
            | .error _ => s
            | .ok call => { s with system := { s.system with calls := s.system.calls ++ [call] } }
          else s
  | .commit n order clock => s.finish n fun c m => c.commit m order clock
  | .abort n order clock => s.finish n fun c m => c.abort m order clock
  | .destroy n order clock =>
      match s.contexts[n]? with
      | none => s
      | some c =>
          if c.isFinished then { s with contexts := s.contexts.eraseIdx n }
          else if s.system.calls.isEmpty then
            ⟨{ s.system with manager := c.destroy s.system.manager order clock },
              s.contexts.eraseIdx n⟩
          else s

/-- The system after a sequence of actions. -/
def run (s : ContextSystem) (actions : List ContextAction) : ContextSystem :=
  actions.foldl step s

/-! ## What the contexts do to the manager -/

/-- The action of the manager that an action of a context comes to, if any. -/
def passedOn (s : ContextSystem) : ContextAction → Option TransactionAction
  | .manager action => some action
  | .create _ => none
  | .dataOperation n now key operation =>
      s.contexts[n]?.bind fun c =>
        if c.isFinished then none else some (.call now c.transactionId key operation)
  | .commit n order clock =>
      s.contexts[n]?.bind fun c =>
        if c.isFinished then none else some (.commitTransaction order clock c.transactionId)
  | .abort n order clock =>
      s.contexts[n]?.bind fun c =>
        if c.isFinished then none else some (.abortTransaction order clock c.transactionId)
  | .destroy n order clock =>
      s.contexts[n]?.bind fun c =>
        if c.isFinished then none else some (.abortTransaction order clock c.transactionId)

end ContextSystem

namespace TransactionContext

variable {c : TransactionContext} {m : DefaultTransactionManager} {i : IterationOrder}
  {clock : ℕ → TimePoint}

/-- A commit is refused, or it is that of the manager. -/
theorem commit_cases (c : TransactionContext) (m : DefaultTransactionManager) (i : IterationOrder)
    (clock : ℕ → TimePoint) :
    (c.isFinished = true ∧ c.commit m i clock = (.error alreadyFinished, c, m)) ∨
    (c.isFinished = false ∧ ∃ failure, (m.commitTransaction i clock c.transactionId).1 = .error failure ∧
      c.commit m i clock = (.error failure, c, (m.commitTransaction i clock c.transactionId).2)) ∨
    (c.isFinished = false ∧ (m.commitTransaction i clock c.transactionId).1 = .ok () ∧
      c.commit m i clock = (.ok (), { c with isCommitted := true },
        (m.commitTransaction i clock c.transactionId).2)) := by
  unfold commit
  cases hfinished : c.isFinished with
  | true => exact Or.inl ⟨rfl, rfl⟩
  | false =>
      rcases m.commitTransaction i clock c.transactionId with ⟨failure | ⟨⟩, m'⟩
      · exact Or.inr (Or.inl ⟨rfl, failure, rfl, rfl⟩)
      · exact Or.inr (Or.inr ⟨rfl, rfl, rfl⟩)

theorem abort_cases (c : TransactionContext) (m : DefaultTransactionManager) (i : IterationOrder)
    (clock : ℕ → TimePoint) :
    (c.isFinished = true ∧ c.abort m i clock = (.error alreadyFinished, c, m)) ∨
    (c.isFinished = false ∧ ∃ failure, (m.abortTransaction i clock c.transactionId).1 = .error failure ∧
      c.abort m i clock = (.error failure, c, (m.abortTransaction i clock c.transactionId).2)) ∨
    (c.isFinished = false ∧ (m.abortTransaction i clock c.transactionId).1 = .ok () ∧
      c.abort m i clock = (.ok (), { c with isAborted := true },
        (m.abortTransaction i clock c.transactionId).2)) := by
  unfold abort
  cases hfinished : c.isFinished with
  | true => exact Or.inl ⟨rfl, rfl⟩
  | false =>
      rcases m.abortTransaction i clock c.transactionId with ⟨failure | ⟨⟩, m'⟩
      · exact Or.inr (Or.inl ⟨rfl, failure, rfl, rfl⟩)
      · exact Or.inr (Or.inr ⟨rfl, rfl, rfl⟩)

/-- What a commit does to the manager. -/
theorem manager_commit (c : TransactionContext) (m : DefaultTransactionManager)
    (i : IterationOrder) (clock : ℕ → TimePoint) :
    (c.commit m i clock).2.2 =
      if c.isFinished then m else (m.commitTransaction i clock c.transactionId).2 := by
  rcases c.commit_cases m i clock with
    ⟨hfinished, hafter⟩ | ⟨hfinished, failure, -, hafter⟩ | ⟨hfinished, -, hafter⟩
  · rw [hafter, hfinished, if_pos rfl]
  · rw [hafter, hfinished, if_neg Bool.false_ne_true]
  · rw [hafter, hfinished, if_neg Bool.false_ne_true]

/-- What an abort does to the manager. -/
theorem manager_abort (c : TransactionContext) (m : DefaultTransactionManager)
    (i : IterationOrder) (clock : ℕ → TimePoint) :
    (c.abort m i clock).2.2 =
      if c.isFinished then m else (m.abortTransaction i clock c.transactionId).2 := by
  rcases c.abort_cases m i clock with
    ⟨hfinished, hafter⟩ | ⟨hfinished, failure, -, hafter⟩ | ⟨hfinished, -, hafter⟩
  · rw [hafter, hfinished, if_pos rfl]
  · rw [hafter, hfinished, if_neg Bool.false_ne_true]
  · rw [hafter, hfinished, if_neg Bool.false_ne_true]

/-- The destructor of a context that is not finished aborts. -/
theorem destroy_eq (h : c.isFinished = false) :
    c.destroy m i clock = (m.abortTransaction i clock c.transactionId).2 := by
  obtain ⟨hcommitted, haborted⟩ := Bool.or_eq_false_iff.mp h
  unfold destroy
  rw [hcommitted, haborted]
  show (c.abort m i clock).2.2 = _
  rw [manager_abort, h, if_neg Bool.false_ne_true]

end TransactionContext

namespace TransactionSystem

variable {s : TransactionSystem} {t : TransactionId}

theorem gone_run (hs : s.Quiet) (ht : s.manager.Gone t) (actions : List TransactionAction) :
    (s.run actions).manager.Gone t := by
  have hboth : (s.run actions).Quiet ∧ (s.run actions).manager.Gone t := by
    refine StepRun.invariant (fun s => Quiet s ∧ s.manager.Gone t) ?_ ⟨hs, ht⟩ actions
    exact fun s action h => ⟨h.1.step action, (h.1.managerStep action).gone h.1.system.manager h.2⟩
  exact hboth.2

end TransactionSystem

namespace ContextSystem

variable {s : ContextSystem}

/-! ## A run with contexts is a run of the manager -/

/-- A function of the manager that a context calls with `mutex_` free. -/
theorem system_finish {n : ℕ} {c : TransactionContext} (hn : s.contexts[n]? = some c)
    {call : TransactionContext → DefaultTransactionManager →
      Result Unit × TransactionContext × DefaultTransactionManager} :
    (s.finish n call).system = s.system.exclusively fun m => (call c m).2.2 := by
  unfold finish TransactionSystem.exclusively
  rw [hn]
  dsimp only
  split_ifs
  · rfl
  · rfl

theorem exclusively_id (s : TransactionSystem) : (s.exclusively fun m => m) = s := by
  unfold TransactionSystem.exclusively
  split_ifs
  · rfl
  · rfl

/-- `commit` and `abort` come to a function `f` of the manager, unless the context
is finished. -/
theorem system_finish_eq {n : ℕ} {c : TransactionContext} (hn : s.contexts[n]? = some c)
    {call : TransactionContext → DefaultTransactionManager →
      Result Unit × TransactionContext × DefaultTransactionManager}
    {f : DefaultTransactionManager → DefaultTransactionManager}
    (hcall : ∀ m, (call c m).2.2 = if c.isFinished then m else f m) :
    (s.finish n call).system = if c.isFinished then s.system else s.system.exclusively f := by
  rw [system_finish hn]
  simp only [hcall]
  split_ifs
  · exact exclusively_id s.system
  · rfl

theorem finish_of_none {n : ℕ} (hn : s.contexts[n]? = none)
    {call : TransactionContext → DefaultTransactionManager →
      Result Unit × TransactionContext × DefaultTransactionManager} : s.finish n call = s := by
  unfold finish
  rw [hn]

/-- **Each action of a context is one of the manager, or nothing.** -/
theorem system_step (s : ContextSystem) (action : ContextAction) :
    (s.step action).system = s.system.run (s.passedOn action).toList := by
  cases action with
  | manager action => rfl
  | create id => rfl
  | dataOperation n now key operation =>
      rw [step, passedOn]
      cases hn : s.contexts[n]? with
      | none => rfl
      | some c =>
          dsimp only [Option.bind_some]
          unfold TransactionContext.dataOperation
          split_ifs with hfree hfinished hfinished
          · rfl
          · show _ = s.system.enter now c.transactionId key operation
            rw [TransactionSystem.enter, if_pos hfree]
            cases s.system.manager.startCall now c.transactionId key operation with
            | error failure => rfl
            | ok call => rfl
          · rfl
          · show _ = s.system.enter now c.transactionId key operation
            rw [TransactionSystem.enter, if_neg hfree]
  | commit n order clock =>
      rw [step, passedOn]
      cases hn : s.contexts[n]? with
      | none =>
          rw [finish_of_none hn]
          rfl
      | some c =>
          rw [system_finish_eq hn fun m => c.manager_commit m order clock, Option.bind_some]
          split_ifs
          · rfl
          · rfl
  | abort n order clock =>
      rw [step, passedOn]
      cases hn : s.contexts[n]? with
      | none =>
          rw [finish_of_none hn]
          rfl
      | some c =>
          rw [system_finish_eq hn fun m => c.manager_abort m order clock, Option.bind_some]
          split_ifs
          · rfl
          · rfl
  | destroy n order clock =>
      rw [step, passedOn]
      cases hn : s.contexts[n]? with
      | none => rfl
      | some c =>
          dsimp only [Option.bind_some]
          split_ifs with hfinished hfree
          · rfl
          · show _ = s.system.exclusively
              fun m => (m.abortTransaction order clock c.transactionId).2
            rw [TransactionSystem.exclusively, if_pos hfree,
              TransactionContext.destroy_eq (Bool.not_eq_true _ ▸ hfinished)]
          · show _ = s.system.exclusively
              fun m => (m.abortTransaction order clock c.transactionId).2
            rw [TransactionSystem.exclusively, if_neg hfree]

/-- What is known of the contexts: none is both committed and aborted, the
transaction of a finished one is over, and no two finished ones have the same
transaction. -/
structure ContextInv (s : ContextSystem) : Prop where
  quiet : s.system.Quiet
  once : ∀ c ∈ s.contexts, ¬ (c.isCommitted = true ∧ c.isAborted = true)
  gone : ∀ c ∈ s.contexts, c.isFinished = true → s.system.manager.Gone c.transactionId
  distinct : s.contexts.Pairwise fun c d =>
    c.isFinished = true → d.isFinished = true → c.transactionId ≠ d.transactionId

variable {s' : ContextSystem}

/-- Some of the contexts there were, after actions of the manager. -/
theorem ContextInv.sublist (h : s.ContextInv) {actions : List TransactionAction}
    (hsystem : s'.system = s.system.run actions) (hcontexts : s'.contexts.Sublist s.contexts) :
    s'.ContextInv := by
  constructor
  · rw [hsystem]
    exact StepRun.invariant TransactionSystem.Quiet (fun _ action hq => hq.step action) h.quiet actions
  · exact fun c hc => h.once c (hcontexts.subset hc)
  · intro c hc hfinished
    rw [hsystem]
    exact TransactionSystem.gone_run h.quiet (h.gone c (hcontexts.subset hc) hfinished) actions
  · exact h.distinct.sublist hcontexts

/-- A context whose transaction was there finishes, and its transaction is over. -/
theorem ContextInv.set (h : s.ContextInv) {n : ℕ} {c c' : TransactionContext}
    (hn : s.contexts[n]? = some c) {actions : List TransactionAction}
    (hsystem : s'.system = s.system.run actions) (hcontexts : s'.contexts = s.contexts.set n c')
    (hid : c'.transactionId = c.transactionId)
    (honce : ¬ (c'.isCommitted = true ∧ c'.isAborted = true))
    (hlive : c.transactionId ∈ s.system.manager.transactions)
    (hgone : s'.system.manager.Gone c.transactionId) : s'.ContextInv := by
  obtain ⟨hlt, -⟩ := List.getElem?_eq_some_iff.mp hn
  have hrest : ContextInv ⟨s'.system, s.contexts⟩ := h.sublist hsystem (List.Sublist.refl _)
  have hmem : ∀ d ∈ s'.contexts, d ∈ s.contexts ∨ d = c' := by
    intro d hd
    rw [hcontexts] at hd
    exact List.mem_or_eq_of_mem_set hd
  constructor
  · exact hrest.quiet
  · intro d hd
    rcases hmem d hd with hd | rfl
    · exact h.once d hd
    · exact honce
  · intro d hd hfinished
    rcases hmem d hd with hd | rfl
    · exact hrest.gone d hd hfinished
    · rw [hid]
      exact hgone
  · -- the transactions of the contexts that were finished before are gone
    have hother : ∀ d ∈ s.contexts, d.isFinished = true → d.transactionId ≠ c'.transactionId := by
      intro d hd hfinished heq
      rw [hid] at heq
      exact (h.gone d hd hfinished).erased (heq ▸ hlive)
    obtain ⟨before, after, hlist, -, hset⟩ :
        ∃ before after, s.contexts = before ++ s.contexts[n] :: after ∧ before.length = n ∧
          s.contexts.set n c' = before ++ c' :: after := List.exists_of_set hlt
    have hdistinct := h.distinct
    rw [hlist, List.pairwise_append, List.pairwise_cons] at hdistinct
    obtain ⟨hbefore, ⟨-, hafter⟩, hacross⟩ := hdistinct
    rw [hcontexts, hset, List.pairwise_append, List.pairwise_cons]
    refine ⟨hbefore, ⟨?_, hafter⟩, ?_⟩
    · intro d hd _ hfinished
      refine (hother d ?_ hfinished).symm
      rw [hlist]
      exact List.mem_append_right _ (List.mem_cons_of_mem _ hd)
    · intro d hd e he hd' he'
      rcases List.mem_cons.mp he with rfl | he
      · refine hother d ?_ hd'
        rw [hlist]
        exact List.mem_append_left _ hd
      · exact hacross d hd e (List.mem_cons_of_mem _ he) hd' he'

/-- What `finish` does to the contexts. -/
theorem finish_contexts {n : ℕ} {c : TransactionContext} (hn : s.contexts[n]? = some c)
    (call : TransactionContext → DefaultTransactionManager →
      Result Unit × TransactionContext × DefaultTransactionManager) :
    s.finish n call = s ∨
      (s.finish n call).contexts = s.contexts.set n (call c s.system.manager).2.1 ∧
        (s.finish n call).system.manager = (call c s.system.manager).2.2 := by
  unfold finish
  rw [hn]
  dsimp only
  split_ifs
  · exact Or.inr ⟨rfl, rfl⟩
  · exact Or.inl rfl

theorem set_of_getElem? {n : ℕ} {c : TransactionContext} (hn : s.contexts[n]? = some c) :
    s.contexts.set n c = s.contexts := by
  obtain ⟨hlt, rfl⟩ := List.getElem?_eq_some_iff.mp hn
  exact List.set_getElem_self hlt

/-- `commit` and `abort` keep the invariant: the context stays as it is, or the
transaction was there and is over. -/
theorem ContextInv.finish (h : s.ContextInv) {n : ℕ} {c : TransactionContext}
    (hn : s.contexts[n]? = some c)
    {call : TransactionContext → DefaultTransactionManager →
      Result Unit × TransactionContext × DefaultTransactionManager}
    {actions : List TransactionAction}
    (hsystem : (s.finish n call).system = s.system.run actions)
    (hcall : (call c s.system.manager).2.1 = c ∨
      (call c s.system.manager).2.1.transactionId = c.transactionId ∧
        ¬ ((call c s.system.manager).2.1.isCommitted = true ∧
          (call c s.system.manager).2.1.isAborted = true) ∧
        c.transactionId ∈ s.system.manager.transactions ∧
        (call c s.system.manager).2.2.Gone c.transactionId) :
    (s.finish n call).ContextInv := by
  rcases finish_contexts hn call with hsame | ⟨hcontexts, hmanager⟩
  · rw [hsame]
    exact h
  · rcases hcall with hkept | ⟨hid, honce, hlive, hgone⟩
    · rw [hkept, set_of_getElem? hn] at hcontexts
      apply h.sublist hsystem
      rw [hcontexts]
    · refine h.set hn hsystem hcontexts hid honce hlive ?_
      rw [hmanager]
      exact hgone

theorem ContextInv.step (h : s.ContextInv) (action : ContextAction) : (s.step action).ContextInv := by
  have hsystem := system_step s action
  have hsound := h.quiet.system.manager
  cases action with
  | manager action => exact h.sublist hsystem (List.Sublist.refl _)
  | create id =>
      refine ⟨h.quiet, ?_, ?_, ?_⟩
      · intro c hc
        rcases List.mem_append.mp hc with hc | hc
        · exact h.once c hc
        · rw [List.mem_singleton.mp hc]
          exact fun hboth => Bool.false_ne_true hboth.1
      · intro c hc hfinished
        rcases List.mem_append.mp hc with hc | hc
        · exact h.gone c hc hfinished
        · rw [List.mem_singleton.mp hc] at hfinished
          cases hfinished
      · refine List.pairwise_append.mpr ⟨h.distinct, List.pairwise_singleton _ _, ?_⟩
        intro c hc d hd hfinished hnew
        rw [List.mem_singleton.mp hd] at hnew
        cases hnew
  | dataOperation n now key operation =>
      apply h.sublist hsystem
      rw [ContextSystem.step]
      cases s.contexts[n]? with
      | none => exact List.Sublist.refl _
      | some c =>
          dsimp only
          split_ifs
          · cases c.dataOperation s.system.manager now key operation with
            | error failure => exact List.Sublist.refl _
            | ok call => exact List.Sublist.refl _
          · exact List.Sublist.refl _
  | commit n order clock =>
      rw [ContextSystem.step] at hsystem ⊢
      cases hn : s.contexts[n]? with
      | none =>
          rw [finish_of_none hn]
          exact h
      | some c =>
          refine h.finish hn hsystem ?_
          rcases c.commit_cases s.system.manager order clock with
            ⟨-, hafter⟩ | ⟨-, failure, -, hafter⟩ | ⟨hfinished, hok, hafter⟩
          · exact Or.inl (by rw [hafter])
          · exact Or.inl (by rw [hafter])
          · rw [hafter]
            refine Or.inr ⟨rfl, ?_, DefaultTransactionManager.gone_commitTransaction hsound hok⟩
            rintro ⟨-, haborted⟩
            rw [show c.isAborted = false from (Bool.or_eq_false_iff.mp hfinished).2] at haborted
            cases haborted
  | abort n order clock =>
      rw [ContextSystem.step] at hsystem ⊢
      cases hn : s.contexts[n]? with
      | none =>
          rw [finish_of_none hn]
          exact h
      | some c =>
          refine h.finish hn hsystem ?_
          rcases c.abort_cases s.system.manager order clock with
            ⟨-, hafter⟩ | ⟨-, failure, -, hafter⟩ | ⟨hfinished, hok, hafter⟩
          · exact Or.inl (by rw [hafter])
          · exact Or.inl (by rw [hafter])
          · rw [hafter]
            refine Or.inr ⟨rfl, ?_, DefaultTransactionManager.gone_abortTransaction hsound hok⟩
            rintro ⟨hcommitted, -⟩
            rw [show c.isCommitted = false from (Bool.or_eq_false_iff.mp hfinished).1] at hcommitted
            cases hcommitted
  | destroy n order clock =>
      apply h.sublist hsystem
      rw [ContextSystem.step]
      cases s.contexts[n]? with
      | none => exact List.Sublist.refl _
      | some c =>
          dsimp only
          split_ifs
          · exact List.eraseIdx_sublist _ _
          · exact List.eraseIdx_sublist _ _
          · exact List.Sublist.refl _

theorem result_destroyTraced (c : TransactionContext) (m : DefaultTransactionManager)
    (order : IterationOrder) (clock : ℕ → TimePoint) :
    (c.destroyTraced m order clock).result = some (c.destroy m order clock) := by
  rw [TransactionContext.destroyTraced, TransactionContext.destroy]
  split_ifs with hunfinished
  · rw [SharedMutex.Traced.result_bind, DefaultTransactionManager.result_abortTransactionTraced,
      Option.bind_some, TransactionContext.abort, if_neg]
    · rcases m.abortTransaction order clock c.transactionId with ⟨failure | _, m'⟩ <;> rfl
    · rw [TransactionContext.isFinished]
      simpa using hunfinished
  · rfl

end ContextSystem

end QcDatabase
