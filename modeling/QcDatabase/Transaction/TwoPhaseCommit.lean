/-
# The messages of two-phase commit

The handlers of `PREPARE`, `COMMIT` and `ABORT` put a transaction into the state
that the message stands for, whatever state it is in.  So a sequence of messages
takes it along the protocol (`MayBecome`) exactly when the sequence itself does
(`InOrder`): some `PREPARE`s, then nothing but `ABORT`s, or nothing but `COMMIT`s
after at least one `PREPARE`.  A `COMMIT` out of the blue and a `PREPARE` or
`ABORT` that comes late do the rest (`isChain_active_iff`).

The votes are the last responses of the nodes, and `commit_transaction` is `OK`
unless one of them is a refusal; a participant that has not answered is taken to
be prepared (`commitTransaction_ok_iff`).
-/
import Mathlib.Data.List.Chain
import QcDatabase.Lib.StepRuns
import QcDatabase.Transaction.TransactionManager

open StepRun UnorderedMap

namespace QcDatabase

/-! ## The protocol -/

/-- The changes of state that two-phase commit has. -/
inductive MayBecome : TransactionState → TransactionState → Prop where
  | stay (state : TransactionState) : MayBecome state state
  | prepare : MayBecome .active .prepared
  | commit : MayBecome .prepared .committed
  | abort : MayBecome .active .aborted
  | abortPrepared : MayBecome .prepared .aborted

/-- The state that a message assigns to a transaction; votes and
acknowledgements assign none. -/
def TpcMessage.assigns (message : TpcMessage) (id : TransactionId) : Option TransactionState :=
  if message.transactionId = id then
    match message.type with
    | .prepare => some .prepared
    | .commit => some .committed
    | .abort => some .aborted
    | _ => none
  else none

/-- The vote of a node for a transaction that a message is. -/
def TpcMessage.vote (message : TpcMessage) (id : TransactionId) (node : NodeId) : Option Bool :=
  if message.transactionId = id ∧ message.fromNode = node then
    match message.type with
    | .prepareOk => some true
    | .prepareAbort => some false
    | _ => none
  else none

/-- Some `PREPARE`s, and then `ABORT`s only, or after at least one `PREPARE`
`COMMIT`s only. -/
def InOrder (assigned : List TransactionState) : Prop :=
  ∃ p n, assigned = List.replicate p .prepared ++ List.replicate n .aborted ∨
    assigned = List.replicate (p + 1) .prepared ++ List.replicate n .committed

theorem TpcMessage.assigns_ne_active (message : TpcMessage) (id : TransactionId) :
    message.assigns id ≠ some .active := by
  rw [assigns]
  split_ifs
  · rcases message.type with _ | _ | _ | _ | _ | _ | _ <;> simp
  · simp

/-! ## Sequences of states along the protocol -/

/-- Nothing follows a state that is final. -/
theorem isChain_final_iff {state : TransactionState} (hfinal : ∀ b, MayBecome state b → b = state)
    {states : List TransactionState} :
    (state :: states).IsChain MayBecome ↔ ∃ n, states = List.replicate n state := by
  constructor
  · intro h
    refine ⟨states.length, ?_⟩
    induction states with
    | nil => rfl
    | cons b states ih =>
        obtain ⟨hb, hrest⟩ := List.isChain_cons_cons.mp h
        obtain rfl := hfinal b hb
        rw [List.length_cons, List.replicate_succ, ← ih hrest]
  · rintro ⟨n, rfl⟩
    induction n with
    | zero => exact List.IsChain.singleton _
    | succ n ih =>
        rw [List.replicate_succ]
        exact List.isChain_cons_cons.mpr ⟨MayBecome.stay _, ih⟩

theorem committed_final (b : TransactionState) (h : MayBecome .committed b) : b = .committed := by
  cases h
  rfl

theorem aborted_final (b : TransactionState) (h : MayBecome .aborted b) : b = .aborted := by
  cases h
  rfl

theorem isChain_prepared_iff {states : List TransactionState} :
    (.prepared :: states).IsChain MayBecome ↔
      ∃ p n, states = List.replicate p .prepared ++ List.replicate n .aborted ∨
        states = List.replicate p .prepared ++ List.replicate n .committed := by
  constructor
  · intro h
    induction states with
    | nil => exact ⟨0, 0, Or.inl rfl⟩
    | cons b states ih =>
        obtain ⟨hb, hrest⟩ := List.isChain_cons_cons.mp h
        -- one `PREPARE` more, or the first state that is final
        cases hb with
        | stay =>
            obtain ⟨p, n, rfl | rfl⟩ := ih hrest
            · exact ⟨p + 1, n, Or.inl rfl⟩
            · exact ⟨p + 1, n, Or.inr rfl⟩
        | commit =>
            obtain ⟨n, rfl⟩ := (isChain_final_iff committed_final).mp hrest
            exact ⟨0, n + 1, Or.inr rfl⟩
        | abortPrepared =>
            obtain ⟨n, rfl⟩ := (isChain_final_iff aborted_final).mp hrest
            exact ⟨0, n + 1, Or.inl rfl⟩
  · rintro ⟨p, n, h⟩
    induction p generalizing states with
    | zero =>
        rcases n with _ | n
        · rcases h with rfl | rfl <;> exact List.IsChain.singleton _
        · rcases h with rfl | rfl
          · exact List.isChain_cons_cons.mpr
              ⟨MayBecome.abortPrepared, (isChain_final_iff aborted_final).mpr ⟨n, rfl⟩⟩
          · exact List.isChain_cons_cons.mpr
              ⟨MayBecome.commit, (isChain_final_iff committed_final).mpr ⟨n, rfl⟩⟩
    | succ p ih =>
        rcases h with rfl | rfl
        · exact List.isChain_cons_cons.mpr ⟨MayBecome.stay _, ih (Or.inl rfl)⟩
        · exact List.isChain_cons_cons.mpr ⟨MayBecome.stay _, ih (Or.inr rfl)⟩

/-- **From `ACTIVE` on**, the protocol is kept by the sequences in order. -/
theorem isChain_active_iff {states : List TransactionState}
    (hstates : ∀ state ∈ states, state ≠ .active) :
    (.active :: states).IsChain MayBecome ↔ InOrder states := by
  rcases states with _ | ⟨b, states⟩
  · exact iff_of_true (List.IsChain.singleton _) ⟨0, 0, Or.inl rfl⟩
  · rw [List.isChain_cons_cons]
    constructor
    · rintro ⟨hb, hrest⟩
      cases hb with
      | stay => exact absurd rfl (hstates _ List.mem_cons_self)
      | prepare =>
          obtain ⟨p, n, rfl | rfl⟩ := isChain_prepared_iff.mp hrest
          · exact ⟨p + 1, n, Or.inl rfl⟩
          · exact ⟨p, n, Or.inr rfl⟩
      | abort =>
          obtain ⟨n, rfl⟩ := (isChain_final_iff aborted_final).mp hrest
          exact ⟨0, n + 1, Or.inl rfl⟩
    · rintro ⟨p, n, h | h⟩
      · rcases p with _ | p
        · rcases n with _ | n
          · cases h
          · obtain ⟨rfl, rfl⟩ := List.cons.inj h
            exact ⟨MayBecome.abort, (isChain_final_iff aborted_final).mpr ⟨n, rfl⟩⟩
        · obtain ⟨rfl, rfl⟩ := List.cons.inj h
          exact ⟨MayBecome.prepare, isChain_prepared_iff.mpr ⟨p, n, Or.inl rfl⟩⟩
      · obtain ⟨rfl, rfl⟩ := List.cons.inj h
        exact ⟨MayBecome.prepare, isChain_prepared_iff.mpr ⟨p, n, Or.inr rfl⟩⟩

namespace DefaultTransactionManager

/-! ## The handlers -/

/-- The manager after it has handled a message. -/
def receive (m : DefaultTransactionManager) (message : TpcMessage) : DefaultTransactionManager :=
  (m.handleTpcMessage message).2

/-- The manager after it has handled messages one by one. -/
def deliver (m : DefaultTransactionManager) (messages : List TpcMessage) :
    DefaultTransactionManager :=
  messages.foldl receive m

/-- The message leaves the state of the transaction unchanged or changes it along
the protocol. -/
def KeepsProtocol (id : TransactionId) (m : DefaultTransactionManager) (message : TpcMessage) :
    Prop :=
  MayBecome (m.getTransactionState id) ((m.receive message).getTransactionState id)

section

variable {m : DefaultTransactionManager} {id : TransactionId} {tx : DistributedTransaction}

theorem lookup_modifyTransaction (t : TransactionId)
    (f : DistributedTransaction → DistributedTransaction) :
    (m.modifyTransaction id f).transactions.lookup t =
      if t = id then (m.transactions.lookup t).map f else m.transactions.lookup t := by
  rw [modifyTransaction]
  by_cases ht : t = id
  · subst ht
    rw [if_pos rfl]
    rcases hlookup : m.transactions.lookup t with _ | tx
    · exact hlookup
    · dsimp only [Option.map_some]
      rw [lookup_setTransaction, if_pos rfl]
  · rw [if_neg ht]
    rcases m.transactions.lookup id with _ | tx
    · rfl
    · dsimp only
      rw [lookup_setTransaction, if_neg ht]

/-- What a message does to a record. -/
structure Received (message : TpcMessage) (id : TransactionId) (tx tx' : DistributedTransaction) :
    Prop where
  state : tx'.state = (message.assigns id).getD tx.state
  participants : tx'.participantNodes = tx.participantNodes
  votes : ∀ node, tx'.prepareVotes.lookup node =
    (message.vote id node).or (tx.prepareVotes.lookup node)
  operations : tx'.operations = tx.operations
  heldLocks : tx'.heldLocks = tx.heldLocks

/-- A message that does not concern the record. -/
theorem Received.same {message : TpcMessage} (hassigns : message.assigns id = none)
    (hvote : ∀ node, message.vote id node = none) : Received message id tx tx := by
  refine ⟨?_, rfl, ?_, rfl, rfl⟩
  · rw [hassigns, Option.getD_none]
  · intro node
    rw [hvote, Option.none_or]

/-- A message that assigns a state. -/
theorem Received.setState {message : TpcMessage} {state : TransactionState}
    (hassigns : message.assigns id = some state) (hvote : ∀ node, message.vote id node = none) :
    Received message id tx (tx.setState state) := by
  refine ⟨?_, rfl, ?_, rfl, rfl⟩
  · rw [hassigns, Option.getD_some]
    rfl
  · intro node
    rw [hvote, Option.none_or]
    rfl

/-- A vote. -/
theorem Received.insertVote {message : TpcMessage} {vote : Bool}
    (hassigns : message.assigns id = none)
    (hvote : ∀ node, message.vote id node = if message.fromNode = node then some vote else none) :
    Received message id tx
      { tx with prepareVotes := tx.prepareVotes.insert message.fromNode vote } := by
  refine ⟨?_, rfl, ?_, rfl, rfl⟩
  · rw [hassigns, Option.getD_none]
  · intro node
    rw [hvote]
    by_cases hnode : message.fromNode = node
    · rw [if_pos hnode, Option.some_or, ← hnode]
      exact AList.lookup_insert _
    · rw [if_neg hnode, Option.none_or]
      exact AList.lookup_insert_ne (Ne.symm hnode)

/-- **Every handler**, on the record of any transaction. -/
theorem received_receive (message : TpcMessage) (htx : m.transactions.lookup id = some tx) :
    ∃ tx', (m.receive message).transactions.lookup id = some tx' ∧ Received message id tx tx' := by
  by_cases hid : message.transactionId = id
  · subst hid
    have hmodify : ∀ f, (m.modifyTransaction message.transactionId f).transactions.lookup
        message.transactionId = some (f tx) := by
      intro f
      rw [lookup_modifyTransaction, if_pos rfl, htx, Option.map_some]
    rw [receive, handleTpcMessage]
    cases htype : message.type with
    | prepare => exact ⟨_, hmodify _, Received.setState (by simp [TpcMessage.assigns, htype])
        (by simp [TpcMessage.vote, htype])⟩
    | prepareOk => exact ⟨_, hmodify _, Received.insertVote (by simp [TpcMessage.assigns, htype])
        (by simp [TpcMessage.vote, htype])⟩
    | prepareAbort => exact ⟨_, hmodify _, Received.insertVote (by simp [TpcMessage.assigns, htype])
        (by simp [TpcMessage.vote, htype])⟩
    | commit => exact ⟨_, hmodify _, Received.setState (by simp [TpcMessage.assigns, htype])
        (by simp [TpcMessage.vote, htype])⟩
    | commitOk => exact ⟨tx, htx, Received.same (by simp [TpcMessage.assigns, htype])
        (by simp [TpcMessage.vote, htype])⟩
    | abort => exact ⟨_, hmodify _, Received.setState (by simp [TpcMessage.assigns, htype])
        (by simp [TpcMessage.vote, htype])⟩
    | abortOk => exact ⟨tx, htx, Received.same (by simp [TpcMessage.assigns, htype])
        (by simp [TpcMessage.vote, htype])⟩
  · -- the message is about another transaction
    have hmodify : ∀ f, (m.modifyTransaction message.transactionId f).transactions.lookup id
        = some tx := by
      intro f
      rw [lookup_modifyTransaction, if_neg (Ne.symm hid), htx]
    have hsame : Received message id tx tx := by
      apply Received.same
      · rw [TpcMessage.assigns, if_neg hid]
      · intro node
        rw [TpcMessage.vote, if_neg fun h => hid h.1]
    refine ⟨tx, ?_, hsame⟩
    rw [receive, handleTpcMessage]
    cases message.type with
    | prepare => exact hmodify _
    | prepareOk => exact hmodify _
    | prepareAbort => exact hmodify _
    | commit => exact hmodify _
    | commitOk => exact htx
    | abort => exact hmodify _
    | abortOk => exact htx

theorem getTransactionState_of_lookup (htx : m.transactions.lookup id = some tx) :
    m.getTransactionState id = tx.state := by
  rw [getTransactionState, htx]

/-! ## The state of a transaction -/

/-- The states of a transaction are those that the messages assign, one after the other. -/
theorem along_keepsProtocol_iff (htx : m.transactions.lookup id = some tx)
    (messages : List TpcMessage) :
    Along receive (KeepsProtocol id) m messages ↔
      (tx.state :: messages.filterMap fun message => message.assigns id).IsChain MayBecome := by
  induction messages generalizing m tx with
  | nil => exact iff_of_true trivial (List.IsChain.singleton _)
  | cons message messages ih =>
      obtain ⟨tx', htx', hreceived⟩ := received_receive message htx
      have hstate := hreceived.state
      rw [Along, ih htx', KeepsProtocol, getTransactionState_of_lookup htx,
        getTransactionState_of_lookup htx']
      rcases hassigns : message.assigns id with _ | state
      · rw [hassigns, Option.getD_none] at hstate
        rw [List.filterMap_cons, hassigns, hstate]
        exact and_iff_right (MayBecome.stay _)
      · rw [hassigns, Option.getD_some] at hstate
        rw [List.filterMap_cons, hassigns, hstate]
        exact List.isChain_cons_cons.symm

/-- What two-phase commit promises of a transaction while messages are handled. -/
structure FollowsProtocol (id : TransactionId) (m : DefaultTransactionManager)
    (messages : List TpcMessage) : Prop where
  changes : Along receive (KeepsProtocol id) m messages
  final : ∀ before after, messages = before ++ after →
    (m.deliver before).getTransactionState id = .committed ∨
      (m.deliver before).getTransactionState id = .aborted →
    (m.deliver messages).getTransactionState id = (m.deliver before).getTransactionState id
  prepared : ∀ before, before <+: messages →
    (m.deliver before).getTransactionState id = .committed →
    ∃ earlier, earlier <+: before ∧ (m.deliver earlier).getTransactionState id = .prepared

/-- A final state stays while every change is one of the protocol. -/
theorem getTransactionState_deliver_of_final {messages : List TpcMessage}
    (hfinal : ∀ b, MayBecome (m.getTransactionState id) b → b = m.getTransactionState id)
    (h : Along receive (KeepsProtocol id) m messages) :
    (m.deliver messages).getTransactionState id = m.getTransactionState id := by
  induction messages generalizing m with
  | nil => rfl
  | cons message messages ih =>
      have hsame : (m.receive message).getTransactionState id = m.getTransactionState id :=
        hfinal _ h.1
      rw [← hsame] at hfinal
      exact (ih hfinal h.2).trans hsame

/-- The way to `COMMITTED` leads through `PREPARED`. -/
theorem exists_prepared {messages : List TpcMessage}
    (hstart : m.getTransactionState id ≠ .committed)
    (h : Along receive (KeepsProtocol id) m messages)
    (hcommitted : (m.deliver messages).getTransactionState id = .committed) :
    ∃ earlier, earlier <+: messages ∧ (m.deliver earlier).getTransactionState id = .prepared := by
  induction messages generalizing m with
  | nil => exact absurd hcommitted hstart
  | cons message messages ih =>
      by_cases hnext : (m.receive message).getTransactionState id = .committed
      · -- the message commits it, which takes a prepared transaction
        have hchange : MayBecome (m.getTransactionState id) .committed := hnext ▸ h.1
        rcases hstate : m.getTransactionState id <;> rw [hstate] at hchange <;> cases hchange
        · exact ⟨[], List.nil_prefix, hstate⟩
        · exact absurd hstate hstart
      · obtain ⟨earlier, hearlier, hprepared⟩ := ih hnext h.2 hcommitted
        exact ⟨message :: earlier, (List.prefix_cons_inj message).mpr hearlier, hprepared⟩

/-- The changes of the protocol keep its promises. -/
theorem FollowsProtocol.of_changes {messages : List TpcMessage}
    (hstart : m.getTransactionState id = .active)
    (h : Along receive (KeepsProtocol id) m messages) : FollowsProtocol id m messages where
  changes := h
  final := by
    rintro before after rfl hended
    have hrest := (along_append.mp h).2
    rw [deliver, List.foldl_append]
    apply getTransactionState_deliver_of_final _ hrest
    intro b hb
    rcases hended with hended | hended
    · rw [deliver] at hended
      rw [hended] at hb ⊢
      exact committed_final b hb
    · rw [deliver] at hended
      rw [hended] at hb ⊢
      exact aborted_final b hb
  prepared := by
    rintro before ⟨after, rfl⟩ hcommitted
    apply exists_prepared _ h.append_left hcommitted
    rw [hstart]
    exact TransactionState.noConfusion

theorem beginTransaction_ok {m' : DefaultTransactionManager} {isolation : IsolationLevel}
    {now : TimePoint} (hbegin : m.beginTransaction isolation now = (.ok id, m')) :
    ∃ tx, m'.transactions.lookup id = some tx ∧ tx.state = .active := by
  rw [beginTransaction] at hbegin
  split_ifs at hbegin with hrunning
  · cases (Prod.mk.inj hbegin).1
  · obtain ⟨hid, rfl⟩ := Prod.mk.inj hbegin
    obtain rfl := Except.ok.inj hid
    exact ⟨_, AList.lookup_insert _, rfl⟩

/-- **Messages are handled along the protocol exactly when they come in order.**
For every transaction that was just begun and every sequence of messages. -/
theorem followsProtocol_iff_inOrder {m' : DefaultTransactionManager} {isolation : IsolationLevel}
    {now : TimePoint} (hbegin : m.beginTransaction isolation now = (.ok id, m'))
    (messages : List TpcMessage) :
    FollowsProtocol id m' messages ↔
      InOrder (messages.filterMap fun message => message.assigns id) := by
  obtain ⟨tx, htx, hactive⟩ := beginTransaction_ok hbegin
  have hchain := along_keepsProtocol_iff htx messages
  rw [hactive, isChain_active_iff] at hchain
  · rw [← hchain]
    refine ⟨FollowsProtocol.changes, FollowsProtocol.of_changes ?_⟩
    rw [getTransactionState_of_lookup htx, hactive]
  · intro state hstate
    obtain ⟨message, -, hassigns⟩ := List.mem_filterMap.mp hstate
    rintro rfl
    exact message.assigns_ne_active _ hassigns

end

/-- A manager that runs, after it began its first transaction. -/
def sampleBegun : DefaultTransactionManager :=
  (create.start.2.beginTransaction .serializable 0).2

/-- A message from the node `n` about the first transaction. -/
def sampleMessage (type : TwoPhaseCommitMessage) : TpcMessage := ⟨type, 1, [110], []⟩

/-- Messages in order, with a duplicate. -/
theorem followsProtocol_sample :
    FollowsProtocol 1 sampleBegun
      [sampleMessage .prepare, sampleMessage .prepare, sampleMessage .commit] := by
  have hbegin : create.start.2.beginTransaction .serializable 0 = (.ok 1, sampleBegun) := rfl
  exact (followsProtocol_iff_inOrder hbegin _).mpr ⟨1, 1, Or.inr rfl⟩

/-- **A late duplicate takes a commit back**: `PREPARE`, `COMMIT` and the
`PREPARE` again. -/
theorem not_followsProtocol_late :
    ¬ FollowsProtocol 1 sampleBegun
      [sampleMessage .prepare, sampleMessage .commit, sampleMessage .prepare] := by
  intro h
  obtain ⟨-, -, hlate, -⟩ := h.changes
  have hback : MayBecome .committed .prepared := hlate
  cases hback

/-! ## The decision of the coordinator -/

end DefaultTransactionManager

/-- A node has voted against the transaction. -/
def DistributedTransaction.Refused (tx : DistributedTransaction) : Prop :=
  ∃ node, tx.prepareVotes.lookup node = some false

/-- `commit_transaction` finds the transaction neither expired nor decided. -/
def DistributedTransaction.Committable (tx : DistributedTransaction) (now : TimePoint) : Prop :=
  tx.isExpired now = false ∧ tx.state = .active

/-- What the loop over the votes computes. -/
theorem DistributedTransaction.refused_iff {tx : DistributedTransaction} :
    tx.Refused ↔ (tx.prepareVotes.entries.all fun vote => vote.2) = false := by
  rw [List.all_eq_false]
  constructor
  · rintro ⟨node, hnode⟩
    exact ⟨⟨node, false⟩, AList.mem_lookup_iff.mp hnode, Bool.false_ne_true⟩
  · rintro ⟨⟨node, vote⟩, hmem, hvote⟩
    obtain rfl := Bool.eq_false_iff.mpr hvote
    exact ⟨node, AList.mem_lookup_iff.mpr hmem⟩

instance (tx : DistributedTransaction) : Decidable tx.Refused :=
  decidable_of_iff _ DistributedTransaction.refused_iff.symm

instance (tx : DistributedTransaction) (now : TimePoint) : Decidable (tx.Committable now) :=
  inferInstanceAs (Decidable (_ ∧ _))

namespace DefaultTransactionManager

section

variable {m : DefaultTransactionManager} {id : TransactionId} {tx : DistributedTransaction}
  {i : IterationOrder} {clock : ℕ → TimePoint}

/-- A commit of a transaction that is not there, expired or decided changes nothing. -/
theorem commitTransaction_of_not_committable
    (h : ∀ tx, m.transactions.lookup id = some tx → ¬ tx.Committable (clock 0)) :
    ∃ failure, m.commitTransaction i clock id = (.error failure, m) := by
  rw [commitTransaction_eq]
  rcases hvalid : m.validateTransaction (clock 0) id with failure | tx
  · exact ⟨failure, rfl⟩
  · obtain ⟨htx, hexpired⟩ := validateTransaction_eq_ok.mp hvalid
    have hstate : tx.state ≠ .active := fun hactive => h tx htx ⟨hexpired, hactive⟩
    dsimp only
    rw [if_pos hstate]
    exact ⟨_, rfl⟩

/-- A refused commit drops the record with its locks held. -/
theorem commitTransaction_of_refused (htx : m.transactions.lookup id = some tx)
    (h : tx.Committable (clock 0)) (hrefused : tx.Refused) :
    m.commitTransaction i clock id =
      (.error ⟨.transactionAborted, "Some participants failed to prepare"⟩,
        m.eraseTransaction id) := by
  rw [commitTransaction_eq, validateTransaction_eq_ok.mpr ⟨htx, h.1⟩]
  dsimp only
  rw [if_neg (not_not.mpr h.2), DistributedTransaction.refused_iff.mp hrefused]
  rfl

/-- Any other commit succeeds. -/
theorem commitTransaction_of_not_refused (htx : m.transactions.lookup id = some tx)
    (h : tx.Committable (clock 0)) (hrefused : ¬ tx.Refused) :
    m.commitTransaction i clock id = (.ok (), (m.releaseAllLocks i id).eraseTransaction id) := by
  rw [DistributedTransaction.refused_iff, Bool.not_eq_false] at hrefused
  rw [commitTransaction_eq, validateTransaction_eq_ok.mpr ⟨htx, h.1⟩]
  dsimp only
  rw [if_neg (not_not.mpr h.2), hrefused]
  rfl

/-- **When a commit succeeds.** -/
theorem commitTransaction_ok_iff :
    (m.commitTransaction i clock id).1 = .ok () ↔
      ∃ tx, m.transactions.lookup id = some tx ∧ tx.Committable (clock 0) ∧ ¬ tx.Refused := by
  constructor
  · intro hok
    by_contra hnone
    -- each of the other ways out returns an error
    by_cases hcommittable :
        ∀ tx, m.transactions.lookup id = some tx → ¬ tx.Committable (clock 0)
    · obtain ⟨failure, herror⟩ := commitTransaction_of_not_committable (i := i) hcommittable
      rw [herror] at hok
      cases hok
    · push Not at hcommittable
      obtain ⟨tx, htx, h⟩ := hcommittable
      by_cases hrefused : tx.Refused
      · rw [commitTransaction_of_refused htx h hrefused] at hok
        cases hok
      · exact hnone ⟨tx, htx, h, hrefused⟩
  · rintro ⟨tx, htx, h, hrefused⟩
    rw [commitTransaction_of_not_refused htx h hrefused]

/-- The last vote of a node among the messages. -/
def lastVote (messages : List TpcMessage) (id : TransactionId) (node : NodeId) : Option Bool :=
  (messages.filterMap fun message => message.vote id node).getLast?

/-- The record after messages has the participants it had, and the last votes. -/
theorem lookup_deliver (htx : m.transactions.lookup id = some tx) (messages : List TpcMessage) :
    ∃ tx', (m.deliver messages).transactions.lookup id = some tx' ∧
      tx'.participantNodes = tx.participantNodes ∧
      ∀ node, tx'.prepareVotes.lookup node =
        (lastVote messages id node).or (tx.prepareVotes.lookup node) := by
  induction messages generalizing m tx with
  | nil => exact ⟨tx, htx, rfl, fun node => rfl⟩
  | cons message messages ih =>
      obtain ⟨next, hnext, hreceived⟩ := received_receive message htx
      obtain ⟨tx', htx', hparticipants, hvotes⟩ := ih hnext
      refine ⟨tx', htx', hparticipants.trans hreceived.participants, ?_⟩
      intro node
      rw [hvotes, hreceived.votes, ← Option.or_assoc]
      congr 1
      -- a later vote of the node counts before this one
      rw [lastVote, lastVote, List.filterMap_cons]
      rcases message.vote id node with _ | vote
      · exact Option.or_none
      · dsimp only
        rw [List.getLast?_cons, Option.or_some]

/-- **A refusal that is on record prevents the commit**, whatever messages came in
whatever order: after `OK`, no participant's vote is a refusal. -/
theorem not_refused_of_commitTransaction_ok (htx : m.transactions.lookup id = some tx)
    (messages : List TpcMessage)
    (hok : ((m.deliver messages).commitTransaction i clock id).1 = .ok ()) :
    ∀ node ∈ tx.participantNodes,
      (lastVote messages id node).or (tx.prepareVotes.lookup node) ≠ some false := by
  intro node _ hvote
  obtain ⟨tx', htx', -, hvotes⟩ := lookup_deliver htx messages
  obtain ⟨found, hfound, -, hrefused⟩ := commitTransaction_ok_iff.mp hok
  obtain rfl := Option.some.inj (htx'.symm.trans hfound)
  exact hrefused ⟨node, (hvotes node).trans hvote⟩

end

/-- An active transaction with two participants. -/
def sampleDistributed : DistributedTransaction :=
  ⟨1, [[110], [111]], .active, .serializable, [], [], 0, 0, 30000, ∅⟩

/-- The first participant agrees, after it had refused. -/
theorem not_refused_of_commitTransaction_ok_sample :
    (lastVote [sampleMessage .prepareAbort, sampleMessage .prepareOk] 1 [110]).or
      (sampleDistributed.prepareVotes.lookup [110]) ≠ some false := by
  have hok : (((create.setTransaction 1 sampleDistributed).deliver
      [sampleMessage .prepareAbort, sampleMessage .prepareOk]).commitTransaction
        IterationOrder.listed (fun _ => 0) 1).1 = .ok () := by decide +kernel
  have hparticipant : [110] ∈ sampleDistributed.participantNodes := List.mem_cons_self
  exact not_refused_of_commitTransaction_ok (m := create.setTransaction 1 sampleDistributed)
    rfl _ hok [110] hparticipant

/-- **Silence is consent**: the second participant has not voted. -/
theorem commitTransaction_ok_without_vote :
    (((create.setTransaction 1 sampleDistributed).deliver
        [sampleMessage .prepareOk]).commitTransaction IterationOrder.listed (fun _ => 0) 1).1
        = .ok () ∧
      [111] ∈ sampleDistributed.participantNodes ∧
      (((create.setTransaction 1 sampleDistributed).deliver
        [sampleMessage .prepareOk]).transactions.lookup 1).map
          (fun tx => tx.prepareVotes.lookup [111]) = some none := by
  decide +kernel

end DefaultTransactionManager

end QcDatabase
