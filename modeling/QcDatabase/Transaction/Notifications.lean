/-
# What the event handler is told

`begin_transaction`, `commit_transaction`, `abort_transaction` and the
deadlock-detection thread tell the handler what they do; `…Notifications` lists
what each of them tells, in the order of the source, with the manager as the
handler finds it (`Notification`).  The handler is one that was set before the
first call.

A start is told when the record is there, and an end between the release of the
locks and the erasure of the record (`Timely`): the handler still finds the record,
`COMMITTED` or `ABORTED`, and the call erases it before it returns.  About one
transaction the handler is told that it started, and then at most once how it ended
(`Story`, `notifications_story`).  A transaction that is dropped by a refused commit
is the one whose story has no end.  Functions that lock a mutex again while they
hold it are taken as granted, as everywhere in `TransactionManager.lean`.
-/
import QcDatabase.Transaction.ManagerSteps
import QcDatabase.Transaction.ReportedOutcome

open Relation UnorderedMap

namespace QcDatabase

/-- A call of a function of `TransactionEventHandler`. -/
inductive TransactionEvent where
  | transactionStarted (id : TransactionId)
  | transactionCommitted (id : TransactionId)
  | transactionAborted (id : TransactionId) (reason : String)
  | deadlockDetected (cycle : List TransactionId)
  deriving DecidableEq

/-- The transaction that an event is about. -/
def TransactionEvent.transactionId : TransactionEvent → Option TransactionId
  | .transactionStarted id => some id
  | .transactionCommitted id => some id
  | .transactionAborted id _ => some id
  | .deadlockDetected _ => none

/-- A call of the handler. -/
structure Notification where
  event : TransactionEvent
  /-- the manager at the moment of the call -/
  manager : DefaultTransactionManager

namespace Notification

/-- The handler finds the record of the transaction, in this state. -/
def Finds (n : Notification) (t : TransactionId) (state : TransactionState) : Prop :=
  ∃ tx, n.manager.transactions.lookup t = some tx ∧ tx.state = state

/-- The handler finds no lock of the transaction. -/
def FindsNoLock (n : Notification) (t : TransactionId) : Prop :=
  ∀ lock l, n.manager.lockManager.locks.lookup lock = some l → l.transactionId ≠ t

/-- What is told is so at that moment, and it is no deadlock. -/
def Timely (n : Notification) : Prop :=
  match n.event with
  | .transactionStarted t => n.Finds t .active
  | .transactionCommitted t => n.Finds t .committed ∧ n.FindsNoLock t
  | .transactionAborted t _ => n.Finds t .aborted ∧ n.FindsNoLock t
  | .deadlockDetected _ => False

end Notification

/-- The events about one transaction. -/
def aboutTransaction (t : TransactionId) (ns : List Notification) : List TransactionEvent :=
  (ns.map Notification.event).filter fun event => event.transactionId = some t

theorem aboutTransaction_append (t : TransactionId) (ns ns' : List Notification) :
    aboutTransaction t (ns ++ ns') = aboutTransaction t ns ++ aboutTransaction t ns' := by
  unfold aboutTransaction
  rw [List.map_append, List.filter_append]

theorem aboutTransaction_singleton {t : TransactionId} {n : Notification}
    (h : n.event.transactionId = some t) : aboutTransaction t [n] = [n.event] := by
  unfold aboutTransaction
  rw [List.map_singleton, List.filter_singleton, decide_eq_true h, cond_true]

theorem aboutTransaction_of_ne {t id : TransactionId} {n : Notification}
    (h : n.event.transactionId = some id) (hne : id ≠ t) : aboutTransaction t [n] = [] := by
  have hother : n.event.transactionId ≠ some t := by
    rw [h]
    exact fun heq => hne (Option.some.inj heq)
  unfold aboutTransaction
  rw [List.map_singleton, List.filter_singleton, decide_eq_false hother, cond_false]

/-! ## What the functions tell -/

namespace DefaultTransactionManager

/-- `notify_transaction_started`, the last call of `begin_transaction`. -/
def beginTransactionNotifications (m : DefaultTransactionManager) (isolation : IsolationLevel)
    (now : TimePoint) : List Notification :=
  if !m.isRunning then []
  else [⟨.transactionStarted m.nextTransactionId, (m.beginTransaction isolation now).2⟩]

/-- `notify_transaction_aborted` in `abort_transaction`. -/
def abortTransactionNotifications (m : DefaultTransactionManager) (i : IterationOrder)
    (clock : ℕ → TimePoint) (id : TransactionId) : List Notification :=
  match m.validateTransaction (clock 0) id with
  | .error _ => []
  | .ok tx =>
      let aborting := (tx.setState .aborting).updateActivity (clock 1)
      match rollbackTransactionOperations aborting with
      | .error _ => []
      | .ok () =>
          let released := (m.setTransaction id aborting).releaseAllLocks i id
          [⟨.transactionAborted id "Transaction aborted by request",
            released.setTransaction id (aborting.setState .aborted)⟩]

/-- `notify_transaction_committed` in `commit_transaction`. -/
def commitTransactionNotifications (m : DefaultTransactionManager) (i : IterationOrder)
    (clock : ℕ → TimePoint) (id : TransactionId) : List Notification :=
  match m.validateTransaction (clock 0) id with
  | .error _ => []
  | .ok tx =>
      if tx.state ≠ .active then []
      else
        let preparing := (tx.setState .preparing).updateActivity (clock 1)
        let prepared := m.setTransaction id preparing
        match prepared.sendPrepareMessages id with
        | .error _ =>
            (prepared.setTransaction id (preparing.setState .aborting)).abortTransactionNotifications
              i (fun n => clock (n + 2)) id
        | .ok _ =>
            if !(tx.prepareVotes.entries.all fun vote => vote.2) then []
            else
              let committing := (preparing.setState .committing).updateActivity (clock 2)
              let m := prepared.setTransaction id committing
              match m.sendCommitMessages id with
              | .error _ => []
              | .ok _ =>
                  match applyTransactionOperations committing with
                  | .error _ => []
                  | .ok () =>
                      [⟨.transactionCommitted id,
                        (m.releaseAllLocks i id).setTransaction id (committing.setState .committed)⟩]

/-- What the loop of `cleanup_expired_transactions` tells. -/
def abortTransactionsNotifications (i : IterationOrder) (clock : TransactionId → ℕ → TimePoint) :
    DefaultTransactionManager → List TransactionId → List Notification
  | _, [] => []
  | m, id :: ids =>
      m.abortTransactionNotifications i (clock id) id ++
        abortTransactionsNotifications i clock (m.abortTransaction i (clock id) id).2 ids

/-- What `cleanup_expired_transactions` tells. -/
def cleanupExpiredTransactionsNotifications (m : DefaultTransactionManager) (i : IterationOrder)
    (seen : TransactionId → TimePoint) (clock : TransactionId → ℕ → TimePoint) :
    List Notification :=
  abortTransactionsNotifications i clock m ((i.order m.transactions.keys).filter fun id =>
    (m.transactions.lookup id).any fun tx => tx.isExpired (seen id))

/-- `DefaultTransactionManager::get_active_transactions`. -/
def getActiveTransactions (m : DefaultTransactionManager) (i : IterationOrder) :
    List TransactionId :=
  ((i.order m.transactions.entries).filter fun entry => entry.2.state = .active).map Sigma.fst

section

variable {m m' : DefaultTransactionManager} {id t : TransactionId} {clock : ℕ → TimePoint}
  {i : IterationOrder}

theorem mem_of_mem_getActiveTransactions (ht : t ∈ m.getActiveTransactions i) :
    t ∈ m.transactions := by
  obtain ⟨⟨id, tx⟩, hentry, rfl⟩ := List.mem_map.mp ht
  have hlisted := (List.mem_filter.mp hentry).1
  exact AList.mem_keys.mpr (List.mem_map.mpr ⟨⟨id, tx⟩, (i.perm _).mem_iff.mp hlisted, rfl⟩)

/-- The record that the handler finds before it is erased. -/
theorem timely_end (h : m.Sound) {released : DefaultTransactionManager} {tx : DistributedTransaction}
    (hlocks : released.lockManager = (m.lockManager.releaseAllLocks i id).2) :
    (Notification.mk (.transactionCommitted id)
        (released.setTransaction id (tx.setState .committed))).Timely ∧
      ∀ reason, (Notification.mk (.transactionAborted id reason)
        (released.setTransaction id (tx.setState .aborted))).Timely := by
  have hunlocked : ∀ lock l, released.lockManager.locks.lookup lock = some l → l.transactionId ≠ id := by
    intro lock l hl
    rw [hlocks] at hl
    exact (h.locks.lookup_releaseAllLocks.mp hl).1
  exact ⟨⟨⟨_, AList.lookup_insert _, rfl⟩, hunlocked⟩,
    fun reason => ⟨⟨_, AList.lookup_insert _, rfl⟩, hunlocked⟩⟩

/-- **The end of a transaction is told iff `abort_transaction` returns `OK`**. -/
theorem abortTransactionNotifications_eq (h : m.Sound) (i : IterationOrder)
    (clock : ℕ → TimePoint) (id : TransactionId) :
    (∃ failure, (m.abortTransaction i clock id).1 = .error failure ∧
      m.abortTransactionNotifications i clock id = []) ∨
    ((m.abortTransaction i clock id).1 = .ok () ∧ ∃ n : Notification, n.Timely ∧
      n.event = .transactionAborted id "Transaction aborted by request" ∧
      m.abortTransactionNotifications i clock id = [n]) := by
  unfold abortTransactionNotifications
  rw [abortTransaction_eq]
  cases m.validateTransaction (clock 0) id with
  | error failure => exact Or.inl ⟨failure, rfl, rfl⟩
  | ok tx => exact Or.inr ⟨rfl, _, (timely_end h rfl).2 _, rfl, rfl⟩

/-- **And iff `commit_transaction` does.** -/
theorem commitTransactionNotifications_eq (h : m.Sound) (i : IterationOrder)
    (clock : ℕ → TimePoint) (id : TransactionId) :
    (∃ failure, (m.commitTransaction i clock id).1 = .error failure ∧
      m.commitTransactionNotifications i clock id = []) ∨
    ((m.commitTransaction i clock id).1 = .ok () ∧ ∃ n : Notification, n.Timely ∧
      n.event = .transactionCommitted id ∧ m.commitTransactionNotifications i clock id = [n]) := by
  unfold commitTransactionNotifications
  rw [commitTransaction_eq]
  cases m.validateTransaction (clock 0) id with
  | error failure => exact Or.inl ⟨failure, rfl, rfl⟩
  | ok tx =>
      dsimp only
      rw [sendPrepareMessages, sendMessages_setTransaction, sendCommitMessages,
        sendMessages_setTransaction]
      split_ifs with hactive hvotes
      · exact Or.inl ⟨_, rfl, rfl⟩
      · exact Or.inl ⟨_, rfl, rfl⟩
      · exact Or.inr ⟨rfl, _, (timely_end h rfl).1, rfl, rfl⟩

/-- A start is told when the record is there. -/
theorem timely_of_mem_beginTransactionNotifications {isolation : IsolationLevel} {now : TimePoint}
    {n : Notification} (hn : n ∈ m.beginTransactionNotifications isolation now) : n.Timely := by
  unfold beginTransactionNotifications at hn
  split_ifs at hn with hrunning
  · exact absurd hn List.not_mem_nil
  · rw [List.mem_singleton.mp hn, DefaultTransactionManager.beginTransaction, if_neg hrunning]
    exact ⟨_, AList.lookup_insert _, rfl⟩

theorem timely_of_mem_abortTransactionNotifications (h : m.Sound) {n : Notification}
    (hn : n ∈ m.abortTransactionNotifications i clock id) : n.Timely := by
  rcases abortTransactionNotifications_eq h i clock id with ⟨-, -, hnone⟩ | ⟨-, n', htimely, -, hone⟩
  · rw [hnone] at hn
    exact absurd hn List.not_mem_nil
  · rw [hone] at hn
    rw [List.mem_singleton.mp hn]
    exact htimely

theorem timely_of_mem_commitTransactionNotifications (h : m.Sound) {n : Notification}
    (hn : n ∈ m.commitTransactionNotifications i clock id) : n.Timely := by
  rcases commitTransactionNotifications_eq h i clock id with ⟨-, -, hnone⟩ | ⟨-, n', htimely, -, hone⟩
  · rw [hnone] at hn
    exact absurd hn List.not_mem_nil
  · rw [hone] at hn
    rw [List.mem_singleton.mp hn]
    exact htimely

theorem timely_of_mem_abortTransactionsNotifications (h : m.Sound)
    {clock : TransactionId → ℕ → TimePoint} {ids : List TransactionId} {n : Notification}
    (hn : n ∈ abortTransactionsNotifications i clock m ids) : n.Timely := by
  induction ids generalizing m with
  | nil => exact absurd hn List.not_mem_nil
  | cons id ids ih =>
      rcases List.mem_append.mp hn with hn | hn
      · exact timely_of_mem_abortTransactionNotifications h hn
      · exact ih (h.settles (settles_abortTransaction i (clock id))) hn

/-- Nothing is left of a transaction that was aborted. -/
theorem gone_abortTransaction (h : m.Sound) (hok : (m.abortTransaction i clock id).1 = .ok ()) :
    id ∈ m.transactions ∧ (m.abortTransaction i clock id).2.Gone id := by
  have herased := erased_abortTransaction h hok
  rw [abortTransaction_eq] at hok herased ⊢
  cases hvalid : m.validateTransaction (clock 0) id with
  | error failure =>
      rw [hvalid] at hok
      cases hok
  | ok tx =>
      rw [hvalid] at herased
      refine ⟨mem_of_lookup (validateTransaction_eq_ok.mp hvalid).1, herased.known, herased.gone, ?_⟩
      exact fun lock l hl => (h.locks.lookup_releaseAllLocks.mp hl).1

/-- Nor of one that was committed. -/
theorem gone_commitTransaction (h : m.Sound) (hok : (m.commitTransaction i clock id).1 = .ok ()) :
    id ∈ m.transactions ∧ (m.commitTransaction i clock id).2.Gone id := by
  have herased := erased_commitTransaction h hok
  obtain ⟨tx, htx, hcommittable, hnot⟩ := commitTransaction_ok_iff.mp hok
  rw [commitTransaction_of_not_refused htx hcommittable hnot] at herased ⊢
  refine ⟨mem_of_lookup htx, herased.known, herased.gone, ?_⟩
  exact fun lock l hl => (h.locks.lookup_releaseAllLocks.mp hl).1

/-! ## The story of a transaction -/

/-- What the handler was told about a transaction, in its order, and what the
manager has of it. -/
inductive Story (m : DefaultTransactionManager) (t : TransactionId) : List TransactionEvent → Prop
  | unknown (h : t ∉ m.transactions) : Story m t []
  | present (h : t ∈ m.transactions) : Story m t [.transactionStarted t]
  | dropped (h : m.Erased t) : Story m t [.transactionStarted t]
  | committed (h : m.Gone t) : Story m t [.transactionStarted t, .transactionCommitted t]
  | aborted (h : m.Gone t) (reason : String) :
      Story m t [.transactionStarted t, .transactionAborted t reason]

variable {es : List TransactionEvent}

/-- A transaction that is there was started, and that is all. -/
theorem Story.of_mem (h : m.Story t es) (ht : t ∈ m.transactions) : es = [.transactionStarted t] := by
  cases h with
  | unknown hnot => exact absurd ht hnot
  | present => rfl
  | dropped => rfl
  | committed hgone => exact absurd ht hgone.erased
  | aborted hgone => exact absurd ht hgone.erased

/-- Nothing was told about ids that have not been given. -/
theorem Story.of_next_le (h : m.Story t es) (hsound : m.Sound) (ht : m.nextTransactionId ≤ t) :
    es = [] := by
  cases h with
  | unknown => rfl
  | present hmem => exact absurd (hsound.known t hmem) (not_lt.mpr ht)
  | dropped herased => exact absurd herased.known (not_lt.mpr ht)
  | committed hgone => exact absurd hgone.known (not_lt.mpr ht)
  | aborted hgone => exact absurd hgone.known (not_lt.mpr ht)

/-- A step that tells nothing about the transaction leaves its story as it is. -/
theorem Story.step (h : m.Story t es) (hsound : m.Sound) (hstep : ManagerStep [] m m')
    (hold : t ∈ m'.transactions → t ∈ m.transactions) : m'.Story t es := by
  have hnext := hstep.nextTransactionId_le hsound
  cases h with
  | unknown hnot => exact Story.unknown fun ht => hnot (hold ht)
  | present ht =>
      by_cases ht' : t ∈ m'.transactions
      · exact Story.present ht'
      · exact Story.dropped ⟨lt_of_lt_of_le (hsound.known t ht) hnext, ht'⟩
  | dropped herased =>
      exact Story.dropped ⟨lt_of_lt_of_le herased.known hnext, fun ht => herased.gone (hold ht)⟩
  | committed hgone => exact Story.committed (hstep.gone hsound hgone)
  | aborted hgone reason => exact Story.aborted (hstep.gone hsound hgone) reason

theorem Story.settles (h : m.Story t es) (hsound : m.Sound) (hsettles : Settles m m') :
    m'.Story t es :=
  h.step hsound (.settles (ReflTransGen.single hsettles)) fun ht => hsettles.mem_transactions ht

/-- The story of a new transaction begins. -/
theorem Story.beginTransaction (h : m.Story t es) (hsound : m.Sound) (isolation : IsolationLevel)
    (now : TimePoint) :
    (m.beginTransaction isolation now).2.Story t
      (es ++ aboutTransaction t (m.beginTransactionNotifications isolation now)) := by
  have hstep : ManagerStep [] m (m.beginTransaction isolation now).2 := .begins isolation now
  unfold beginTransactionNotifications
  unfold DefaultTransactionManager.beginTransaction at hstep ⊢
  split_ifs at hstep ⊢ with hrunning
  · rw [show aboutTransaction t [] = [] from rfl, List.append_nil]
    exact h
  · by_cases ht : t = m.nextTransactionId
    · subst ht
      rw [h.of_next_le hsound (le_refl _), aboutTransaction_singleton rfl, List.nil_append]
      exact Story.present ((AList.mem_insert _).mpr (Or.inl rfl))
    · rw [aboutTransaction_of_ne rfl fun heq => ht heq.symm, List.append_nil]
      refine h.step hsound hstep ?_
      intro hin
      exact ((AList.mem_insert _).mp hin).resolve_left ht

/-- The story of a transaction that is aborted ends. -/
theorem Story.abortTransaction (h : m.Story t es) (hsound : m.Sound) :
    (m.abortTransaction i clock id).2.Story t
      (es ++ aboutTransaction t (m.abortTransactionNotifications i clock id)) := by
  have hsettles : Settles m (m.abortTransaction i clock id).2 := settles_abortTransaction i clock
  rcases abortTransactionNotifications_eq hsound i clock id with
    ⟨-, -, hnone⟩ | ⟨hok, n, -, hevent, hone⟩
  · rw [hnone, show aboutTransaction t [] = [] from rfl, List.append_nil]
    exact h.settles hsound hsettles
  · obtain ⟨hmem, hgone⟩ := gone_abortTransaction hsound hok
    rw [hone]
    by_cases ht : id = t
    · subst ht
      rw [h.of_mem hmem, aboutTransaction_singleton (by rw [hevent]; rfl), hevent]
      exact Story.aborted hgone _
    · rw [aboutTransaction_of_ne (by rw [hevent]; rfl) ht, List.append_nil]
      exact h.settles hsound hsettles

/-- So does that of a transaction that is committed. -/
theorem Story.commitTransaction (h : m.Story t es) (hsound : m.Sound) :
    (m.commitTransaction i clock id).2.Story t
      (es ++ aboutTransaction t (m.commitTransactionNotifications i clock id)) := by
  have hsettles : Settles m (m.commitTransaction i clock id).2 := settles_commitTransaction i clock
  rcases commitTransactionNotifications_eq hsound i clock id with
    ⟨-, -, hnone⟩ | ⟨hok, n, -, hevent, hone⟩
  · rw [hnone, show aboutTransaction t [] = [] from rfl, List.append_nil]
    exact h.settles hsound hsettles
  · obtain ⟨hmem, hgone⟩ := gone_commitTransaction hsound hok
    rw [hone]
    by_cases ht : id = t
    · subst ht
      rw [h.of_mem hmem, aboutTransaction_singleton (by rw [hevent]; rfl), hevent]
      exact Story.committed hgone
    · rw [aboutTransaction_of_ne (by rw [hevent]; rfl) ht, List.append_nil]
      exact h.settles hsound hsettles

/-- One abort after the other. -/
theorem Story.abortTransactions {clock : TransactionId → ℕ → TimePoint} (ids : List TransactionId)
    (h : m.Story t es) (hsound : m.Sound) :
    (ids.foldl (fun m id => (m.abortTransaction i (clock id) id).2) m).Story t
      (es ++ aboutTransaction t (abortTransactionsNotifications i clock m ids)) := by
  induction ids generalizing m es with
  | nil =>
      rw [abortTransactionsNotifications, show aboutTransaction t [] = [] from rfl, List.append_nil]
      exact h
  | cons id ids ih =>
      rw [abortTransactionsNotifications, aboutTransaction_append, ← List.append_assoc, List.foldl_cons]
      exact ih (h.abortTransaction hsound) (hsound.settles (settles_abortTransaction i (clock id)))

end

end DefaultTransactionManager

namespace TransactionSystem

/-! ## Runs -/

/-- What an action tells the handler. -/
def notified (s : TransactionSystem) : TransactionAction → List Notification
  | .beginTransaction isolation now =>
      if s.calls.isEmpty then s.manager.beginTransactionNotifications isolation now else []
  | .commitTransaction order clock id =>
      if s.calls.isEmpty then s.manager.commitTransactionNotifications order clock id else []
  | .abortTransaction order clock id =>
      if s.calls.isEmpty then s.manager.abortTransactionNotifications order clock id else []
  | .cleanupExpiredTransactions order seen clock =>
      if s.calls.isEmpty then s.manager.cleanupExpiredTransactionsNotifications order seen clock
      else []
  | .resolveDeadlock _ =>
      match s.deadlocks with
      | [] => []
      | cycle :: _ => [⟨.deadlockDetected cycle, s.manager⟩]
  | _ => []

/-- What a sequence of actions tells the handler. -/
def notifications (s : TransactionSystem) : List TransactionAction → List Notification
  | [] => []
  | action :: actions => s.notified action ++ (s.step action).notifications actions

theorem notifications_concat (s : TransactionSystem) (actions : List TransactionAction)
    (action : TransactionAction) :
    s.notifications (actions ++ [action]) =
      s.notifications actions ++ (s.run actions).notified action := by
  induction actions generalizing s with
  | nil =>
      rw [List.nil_append, notifications, notifications, notifications, List.append_nil]
      rfl
  | cons first actions ih =>
      rw [List.cons_append, notifications, notifications, ih, List.append_assoc]
      rfl

variable {s : TransactionSystem} {t : TransactionId} {es : List TransactionEvent}

/-- What a function tells while it holds `mutex_` exclusively. -/
theorem story_exclusively (h : s.manager.Story t es)
    {f : DefaultTransactionManager → DefaultTransactionManager} {told : List Notification}
    (hf : (f s.manager).Story t (es ++ aboutTransaction t told)) :
    (s.exclusively f).manager.Story t
      (es ++ aboutTransaction t (if s.calls.isEmpty then told else [])) := by
  unfold exclusively
  split_ifs with hfree
  · exact hf
  · rw [show aboutTransaction t [] = [] from rfl, List.append_nil]
    exact h

/-- **A step carries the story of every transaction on.** -/
theorem story_step (h : s.manager.Story t es) (hs : s.Quiet) (action : TransactionAction) :
    (s.step action).manager.Story t (es ++ aboutTransaction t (s.notified action)) := by
  have hsound := hs.system.manager
  cases action with
  | beginTransaction isolation now =>
      exact story_exclusively h (h.beginTransaction hsound isolation now)
  | commitTransaction order clock id => exact story_exclusively h (h.commitTransaction hsound)
  | abortTransaction order clock id => exact story_exclusively h (h.abortTransaction hsound)
  | cleanupExpiredTransactions order seen clock =>
      exact story_exclusively h (h.abortTransactions _ hsound)
  | resolveDeadlock order =>
      -- there is no deadlock to tell of
      rw [notified, step, hs.deadlocks]
      dsimp only
      rw [show aboutTransaction t [] = [] from rfl, List.append_nil]
      exact h
  | _ =>
      -- the other actions tell nothing and add no transaction
      rw [show s.notified _ = [] from rfl, show aboutTransaction t [] = [] from rfl, List.append_nil]
      refine h.step hsound (hs.managerStep _) (mem_transactions_of_step ?_)
      intro isolation now haction
      cases haction

theorem story_run (actions : List TransactionAction) (t : TransactionId) :
    (create.run actions).manager.Story t (aboutTransaction t (create.notifications actions)) := by
  induction actions using List.reverseRecOn with
  | nil => exact .unknown (AList.notMem_empty t)
  | append_singleton actions action ih =>
      rw [run_concat, notifications_concat, aboutTransaction_append]
      exact story_step ih (Quiet.run actions) action

/-- What an action tells is so. -/
theorem timely_of_mem_notified (hs : s.Quiet) {action : TransactionAction} {n : Notification}
    (hn : n ∈ s.notified action) : n.Timely := by
  have hsound := hs.system.manager
  cases action with
  | beginTransaction isolation now =>
      unfold notified at hn
      split_ifs at hn
      · exact DefaultTransactionManager.timely_of_mem_beginTransactionNotifications hn
      · exact absurd hn List.not_mem_nil
  | commitTransaction order clock id =>
      unfold notified at hn
      split_ifs at hn
      · exact DefaultTransactionManager.timely_of_mem_commitTransactionNotifications hsound hn
      · exact absurd hn List.not_mem_nil
  | abortTransaction order clock id =>
      unfold notified at hn
      split_ifs at hn
      · exact DefaultTransactionManager.timely_of_mem_abortTransactionNotifications hsound hn
      · exact absurd hn List.not_mem_nil
  | cleanupExpiredTransactions order seen clock =>
      unfold notified at hn
      split_ifs at hn
      · exact DefaultTransactionManager.timely_of_mem_abortTransactionsNotifications hsound hn
      · exact absurd hn List.not_mem_nil
  | resolveDeadlock order =>
      -- the detection finds no deadlock
      rw [notified, hs.deadlocks] at hn
      exact absurd hn List.not_mem_nil
  | _ => exact absurd hn List.not_mem_nil

theorem timely_of_mem_notifications (actions : List TransactionAction) :
    ∀ n ∈ create.notifications actions, n.Timely := by
  induction actions using List.reverseRecOn with
  | nil => exact fun n hn => absurd hn List.not_mem_nil
  | append_singleton actions action ih =>
      intro n hn
      rw [notifications_concat] at hn
      rcases List.mem_append.mp hn with hn | hn
      · exact ih n hn
      · exact timely_of_mem_notified (Quiet.run actions) hn

/-- **What the handler is told**: no deadlock, and starts and ends that are so when they
are told: the record is there in the state that is told of, at an end without any lock.
About each transaction the handler is told that it started, and after that at most once
that it was committed or aborted, and then no record and no lock of it is left after the
call; who is listed as active has been told to start and no more. -/
theorem notifications_story (actions : List TransactionAction) :
    (∀ n ∈ create.notifications actions, n.Timely) ∧
    (∀ t, (create.run actions).manager.Story t
      (aboutTransaction t (create.notifications actions))) ∧
    ∀ order t, t ∈ (create.run actions).manager.getActiveTransactions order →
      aboutTransaction t (create.notifications actions) = [.transactionStarted t] := by
  refine ⟨timely_of_mem_notifications actions, story_run actions, ?_⟩
  intro order t ht
  exact (story_run actions t).of_mem
    (DefaultTransactionManager.mem_of_mem_getActiveTransactions ht)

/-- One transaction commits, one is aborted, and one is dropped by a refused commit. -/
def sampleStories : List TransactionAction :=
  [.start, .beginTransaction .serializable 0, .beginTransaction .serializable 0,
    .beginTransaction .serializable 0, .commitTransaction IterationOrder.listed (fun _ => 0) 1,
    .abortTransaction IterationOrder.listed (fun _ => 0) 2,
    .handleTpcMessage ⟨.prepareAbort, 3, [110], []⟩,
    .commitTransaction IterationOrder.listed (fun _ => 0) 3,
    .abortTransaction IterationOrder.listed (fun _ => 0) 1]

theorem notifications_story_sampleStories :
    (create.notifications sampleStories).map Notification.event =
      [.transactionStarted 1, .transactionStarted 2, .transactionStarted 3,
        .transactionCommitted 1, .transactionAborted 2 "Transaction aborted by request"] ∧
    (create.run sampleStories).manager.Story 3
      (aboutTransaction 3 (create.notifications sampleStories)) :=
  ⟨by decide +kernel, (notifications_story sampleStories).2.1 3⟩

end TransactionSystem

end QcDatabase
