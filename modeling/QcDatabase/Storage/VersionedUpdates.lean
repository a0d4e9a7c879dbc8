/-
# No lost update through version-checked writes

Any number of clients read one key with `get` and write it with
`put_if_version_match`, naming the version they have read (0 if there was
nothing); in between come flushes and calls on other keys.

With the reads and the successful writes of the clients the engine is a register
with version-checked writes (`register`): every action of the system is a step
of the register or leaves it alone (`step_register`).  `no_lost_update` follows,
as a `uint64_t` takes `2 ^ 64` steps to come round.
-/
import QcDatabase.Lib.CheckedRegister
import QcDatabase.Lib.StepRuns
import QcDatabase.Storage.PublicCalls

open CheckedRegister

namespace QcDatabase

namespace LSMTreeEngine

/-! ## Calls that leave a key alone -/

theorem flushMemtable_isOpen (e : LSMTreeEngine) (first second : TableWrite) :
    (e.flushMemtable first second).2.isOpen = e.isOpen := by
  obtain ⟨_, _, _, _, _, -, heq⟩ := e.flushMemtable_frame first second
  rw [heq]

/-- The engine stays open or closed, and a read of the key has the same result. -/
structure Keeps (uninit : Uninit) (key : MultiLevelKey) (e e' : LSMTreeEngine) : Prop where
  isOpen : e'.isOpen = e.isOpen
  get : (e'.get uninit key).1 = (e.get uninit key).1

variable {uninit : Uninit} {key : MultiLevelKey} {e e' e'' : LSMTreeEngine}

theorem Keeps.refl (uninit : Uninit) (key : MultiLevelKey) (e : LSMTreeEngine) :
    Keeps uninit key e e :=
  ⟨rfl, rfl⟩

theorem Keeps.trans (h : Keeps uninit key e e') (h' : Keeps uninit key e' e'') :
    Keeps uninit key e e'' :=
  ⟨h'.isOpen.trans h.isOpen, h'.get.trans h.get⟩

theorem SameReads.keeps (h : SameReads uninit e e') (hopen : e'.isOpen = e.isOpen)
    (key : MultiLevelKey) : Keeps uninit key e e' :=
  ⟨hopen, h.1 key⟩

theorem keeps_get (e : LSMTreeEngine) (uninit : Uninit) (key other : MultiLevelKey) :
    Keeps uninit key e (e.get uninit other).2 := by
  refine (sameReads_get e uninit other).keeps ?_ key
  obtain ⟨ts, hget, -⟩ := e.get_frame uninit other
  rw [hget]
  rfl

theorem keeps_multiGetFrom (e : LSMTreeEngine) (uninit : Uninit) (key : MultiLevelKey)
    (clock : ℕ → Timestamp) (i : ℕ) (keys : List MultiLevelKey) :
    Keeps uninit key e (e.multiGetFrom uninit clock i keys).2 :=
  invariant_multiGetFrom (P := Keeps uninit key e)
    (fun e' other h => h.trans (keeps_get e' uninit key other)) (Keeps.refl uninit key e) clock i keys

/-- A write ahead and an insertion at another key. -/
theorem keeps_insert {other : MultiLevelKey} (hne : other ≠ key) {entry : DataEntry}
    {wal : WAL} {m : MemTable}
    (hdata : m.data = e.memtable.data.insert other entry) :
    Keeps uninit key e { e with wal := wal, memtable := m } := by
  refine ⟨rfl, get_congr_memtable rfl uninit ?_⟩
  rw [hdata, SortedMap.find?_insert_ne _ _ hne]

/-- A put on another key. -/
theorem keeps_put {other : MultiLevelKey} (hne : other ≠ key) (entry : DataEntry) :
    Keeps uninit key e (e.put other entry).2 := by
  rcases e.put_cases other entry with ⟨f, wal, heq⟩ | ⟨wal, m, heq, -, -, hdata⟩
  · rw [heq]
    exact (sameReads_wal e uninit wal).keeps rfl key
  · rw [heq]
    exact keeps_insert hne hdata

/-- A removal of another key. -/
theorem keeps_remove {other : MultiLevelKey} (hne : other ≠ key) (now : Timestamp) :
    Keeps uninit key e (e.remove other now).2 := by
  rcases e.remove_cases other now with ⟨f, wal, heq⟩ | ⟨wal, m, heq, -, hdata⟩
  · rw [heq]
    exact (sameReads_wal e uninit wal).keeps rfl key
  · rw [heq]
    exact keeps_insert hne hdata

theorem keeps_multiPut {entries : List (MultiLevelKey × DataEntry)}
    (hne : ∀ entry ∈ entries, entry.1 ≠ key) : Keeps uninit key e (e.multiPut entries).2 :=
  invariant_multiPut (P := Keeps uninit key e)
    (fun _ entry hentry h => h.trans (keeps_put (hne entry hentry) entry.2))
    (Keeps.refl uninit key e)

theorem keeps_flushMemtable {first second : TableWrite} (h : e.CleanFlush first second) :
    Keeps uninit key e (e.flushMemtable first second).2 :=
  (sameReads_flushMemtable h uninit).keeps (e.flushMemtable_isOpen first second) key

/-- The call neither writes the key nor compacts, closes or opens; its flushes are clean. -/
def Spares (key : MultiLevelKey) (e : LSMTreeEngine) : PublicCall → Prop
  | .get _ => True
  | .put other _ => other ≠ key
  | .putIfVersionMatch other _ _ => other ≠ key
  | .remove other _ => other ≠ key
  | .removeIfVersionMatch other _ _ => other ≠ key
  | .rangeScan _ => True
  | .multiGet _ _ => True
  | .multiPut entries => ∀ entry ∈ entries, entry.1 ≠ key
  | .flush first second => e.CleanFlush first second
  | .compact _ => False
  | .backgroundWork first second _ => e.CleanFlush first second ∧
      (if e.memtable.shouldFlush then (e.flushMemtable first second).2 else e).needCompaction = false
  | .close _ _ => False
  | .open _ _ _ => False
  | .recreate _ => False

/-- **A call that spares the key** keeps what is read under it. -/
theorem keeps_callStep (hopen : e.isOpen = true) {call : PublicCall} (h : Spares key e call) :
    Keeps uninit key e (e.callStep uninit call) := by
  cases call with
  | get other => exact keeps_get e uninit key other
  | put other entry => exact keeps_put h entry
  | putIfVersionMatch other entry expectedVersion =>
      have hread := keeps_get e uninit key other
      exact invariant_putIfVersionMatch (Keeps.refl uninit key e) hread
        (fun entry => hread.trans (keeps_put h entry)) entry expectedVersion
  | remove other now => exact keeps_remove h now
  | removeIfVersionMatch other expectedVersion now =>
      have hread := keeps_get e uninit key other
      exact invariant_removeIfVersionMatch (Keeps.refl uninit key e) hread
        (hread.trans (keeps_remove h now)) expectedVersion
  | rangeScan query =>
      obtain ⟨ts, hscan, -⟩ := e.rangeScan_frame uninit query
      refine (sameReads_rangeScan e uninit query).keeps ?_ key
      rw [hscan]
      rfl
  | multiGet clock keys => exact keeps_multiGetFrom e uninit key clock 0 keys
  | multiPut entries => exact keeps_multiPut h
  | flush first second =>
      refine invariant_flush (Keeps.refl uninit key e) (fun _ => keeps_flushMemtable h) ?_
      intro e' hkeeps
      exact hkeeps.trans ((sameReads_wal e' uninit e'.wal.sync.2).keeps rfl key)
  | compact merged => exact h.elim
  | backgroundWork first second merged =>
      rw [callStep, if_pos hopen, backgroundWork, h.2, if_neg Bool.false_ne_true]
      split_ifs
      · exact keeps_flushMemtable h.1
      · exact Keeps.refl uninit key e
  | close first second => exact h.elim
  | «open» access decoded applied => exact h.elim
  | recreate maxSstables => exact h.elim

end LSMTreeEngine

/-! ## The clients of one key -/

/-- The version a client names after its read. -/
def versionOf (read : Option DataEntry) : Version := (read.map DataEntry.version).getD 0

/-- An engine, what each client has read last under the key, and the successful
writes of the clients: what the client had read, and what it wrote. -/
structure UpdateSystem where
  engine : LSMTreeEngine
  reads : ℕ → Option (Option DataEntry)
  writes : List (Option DataEntry × Option DataEntry)

/-- A client reads the key, a client writes it under the version it has read, or
there is another call on the engine. -/
inductive UpdateAction where
  | get (client : ℕ)
  | putIfVersionMatch (client : ℕ) (entry : DataEntry)
  | other (call : LSMTreeEngine.PublicCall)

namespace UpdateSystem

open LSMTreeEngine

/-- The clients have not read yet. -/
def start (e : LSMTreeEngine) : UpdateSystem := ⟨e, fun _ => none, []⟩

/-- The system after an action; a client that has read nothing yet does not write. -/
def step (uninit : Uninit) (key : MultiLevelKey) (s : UpdateSystem) : UpdateAction → UpdateSystem
  | .get client =>
      let (result, e) := s.engine.get uninit key
      { s with engine := e, reads := Function.update s.reads client (some result.toOption) }
  | .putIfVersionMatch client entry =>
      match s.reads client with
      | none => s
      | some read =>
          match s.engine.putIfVersionMatch uninit key entry (versionOf read) with
          | (.error _, e) => { s with engine := e }
          | (.ok _, e) => { s with
              engine := e
              writes := s.writes ++ [(read, some { entry with version := versionOf read + 1 })] }
  | .other call => { s with engine := s.engine.callStep uninit call }

/-- The system after a sequence of actions. -/
def run (uninit : Uninit) (key : MultiLevelKey) (s : UpdateSystem) (actions : List UpdateAction) :
    UpdateSystem :=
  actions.foldl (step uninit key) s

/-- The clients write entries that are not marked deleted, and nobody else writes the key. -/
def Allowed (key : MultiLevelKey) (s : UpdateSystem) : UpdateAction → Prop
  | .get _ => True
  | .putIfVersionMatch _ entry => entry.deleted = false
  | .other call => Spares key s.engine call

/-- The key as a register with version-checked writes. -/
def register (uninit : Uninit) (key : MultiLevelKey) (s : UpdateSystem) :
    Register ℕ (Option DataEntry) :=
  ⟨(s.engine.get uninit key).1.toOption, s.reads, s.writes⟩

theorem versionMatches_iff (read : Result DataEntry) (expectedVersion : Version) :
    VersionMatches read expectedVersion ↔ versionOf read.toOption = expectedVersion := by
  cases read with
  | ok current => exact Iff.rfl
  | error f => exact eq_comm

/-- A version-checked put on the key: an error that changes no read at all, or
the next version of the value read, in its place. -/
theorem putIfVersionMatch_cases {e : LSMTreeEngine} (hopen : e.isOpen = true) (uninit : Uninit)
    (key : MultiLevelKey) {entry : DataEntry} (hlive : entry.deleted = false)
    (expectedVersion : Version) :
    (∃ f e', e.putIfVersionMatch uninit key entry expectedVersion = (.error f, e') ∧
        e'.isOpen = true ∧ SameReads uninit e e') ∨
      (∃ e', e.putIfVersionMatch uninit key entry expectedVersion = (.ok (), e') ∧
        e'.isOpen = true ∧ versionOf (e.get uninit key).1.toOption = expectedVersion ∧
        (e'.get uninit key).1 = .ok { entry with version := expectedVersion + 1 }) := by
  have hread := keeps_get e uninit key key
  have hreads := sameReads_get e uninit key
  rcases putIfVersionMatch_eq hopen uninit key entry expectedVersion with
    ⟨hmatch, heq⟩ | ⟨-, message, heq⟩
  · rw [versionMatches_iff] at hmatch
    rcases (e.get uninit key).2.put_cases key { entry with version := expectedVersion + 1 } with
      ⟨f, wal, hput⟩ | ⟨wal, m, hput, hstill, -, hdata⟩
    · rw [heq, hput]
      exact Or.inl ⟨f, _, rfl, hread.isOpen.trans hopen,
        hreads.trans (sameReads_wal _ uninit wal)⟩
    · rw [heq, hput]
      refine Or.inr ⟨_, rfl, hstill, hmatch, get_of_memtable ?_ uninit ?_⟩
      · exact hstill
      · rw [liveEntry, hdata, SortedMap.find?_insert_self, Option.filter_some, hlive]
        rfl
  · rw [heq]
    exact Or.inl ⟨_, _, rfl, hread.isOpen.trans hopen, hreads⟩

/-- **Step lemma.**  Every action is a step of the register. -/
theorem step_register (uninit : Uninit) {key : MultiLevelKey} {s : UpdateSystem}
    (hopen : s.engine.isOpen = true) {action : UpdateAction} (h : s.Allowed key action) :
    (s.step uninit key action).engine.isOpen = true ∧
      Step versionOf (· + 1) (s.register uninit key) ((s.step uninit key action).register uninit key) := by
  cases action with
  | get client =>
      have hread := keeps_get s.engine uninit key key
      refine ⟨hread.isOpen.trans hopen, ?_⟩
      -- only the client's own copy changes
      have hsame : (s.step uninit key (.get client)).register uninit key
          = { s.register uninit key with
              reads := Function.update s.reads client (some (s.register uninit key).current) } := by
        rw [register, register, step]
        exact congrArg (fun r => Register.mk r _ _) (congrArg Except.toOption hread.get)
      rw [hsame]
      exact Step.read client
  | putIfVersionMatch client entry =>
      rw [step]
      rcases hclient : s.reads client with _ | read
      · exact ⟨hopen, Step.stay⟩
      · dsimp only
        rcases putIfVersionMatch_cases hopen uninit key h (versionOf read) with
          ⟨f, e', heq, hstill, hreads⟩ | ⟨e', heq, hstill, hchecked, hget⟩
        · -- refused: no read has changed
          rw [heq]
          refine ⟨hstill, ?_⟩
          have hsame : register uninit key { s with engine := e' } = s.register uninit key := by
            rw [register, register, hreads.1 key]
          dsimp only
          rw [hsame]
          exact Step.stay
        · -- the version that the client read is still there
          rw [heq]
          refine ⟨hstill, ?_⟩
          have hwritten : (e'.get uninit key).1.toOption
              = some { entry with version := versionOf read + 1 } := by
            rw [hget]
            rfl
          have hafter : register uninit key ⟨e', s.reads, s.writes ++
              [(read, some { entry with version := versionOf read + 1 })]⟩
              = { s.register uninit key with
                  current := some { entry with version := versionOf read + 1 }
                  writes := s.writes ++
                    [(read, some { entry with version := versionOf read + 1 })] } := by
            rw [register, hwritten]
            rfl
          dsimp only
          rw [hafter]
          exact Step.write client read _ hclient hchecked.symm rfl
  | other call =>
      have hkeeps : Keeps uninit key s.engine (s.engine.callStep uninit call) :=
        keeps_callStep hopen h
      refine ⟨hkeeps.isOpen.trans hopen, ?_⟩
      have hsame : (s.step uninit key (.other call)).register uninit key
          = s.register uninit key := by
        rw [register, register, step, hkeeps.get]
      rw [hsame]
      exact Step.stay

/-- The versions from any one on are distinct for `2 ^ 64` steps. -/
theorem iterate_succ_inj (v : Version) (i j : ℕ) (hi : i < 2 ^ 64) (hj : j < 2 ^ 64)
    (h : (· + 1)^[i] v = (· + 1)^[j] v) : i = j := by
  have hiterate : ∀ n : ℕ, (· + 1)^[n] v = v + UInt64.ofNat n := by
    intro n
    induction n with
    | zero => simp
    | succ n ih =>
        rw [Function.iterate_succ_apply', ih, UInt64.add_assoc, UInt64.ofNat_add]
        rfl
  rw [hiterate, hiterate, UInt64.add_right_inj] at h
  have hnat := congrArg UInt64.toNat h
  rwa [UInt64.toNat_ofNat', UInt64.toNat_ofNat', Nat.mod_eq_of_lt hi, Nat.mod_eq_of_lt hj] at hnat

theorem writes_le_step (uninit : Uninit) (key : MultiLevelKey) (s : UpdateSystem)
    (action : UpdateAction) : s.writes.length ≤ (s.step uninit key action).writes.length := by
  cases action with
  | get client => exact le_rfl
  | putIfVersionMatch client entry =>
      rw [step]
      rcases s.reads client with _ | read
      · exact le_rfl
      · dsimp only
        rcases s.engine.putIfVersionMatch uninit key entry (versionOf read) with ⟨_ | _, e'⟩
        · exact le_rfl
        · rw [List.length_append]
          exact Nat.le_add_right _ _
  | other call => exact le_rfl

theorem writes_le_run (uninit : Uninit) (key : MultiLevelKey) (s : UpdateSystem)
    (actions : List UpdateAction) : s.writes.length ≤ (s.run uninit key actions).writes.length :=
  StepRun.invariant (fun t : UpdateSystem => s.writes.length ≤ t.writes.length)
    (fun t action h => h.trans (t.writes_le_step uninit key action)) le_rfl actions

/-- **Run lemma.** -/
theorem tracks_run {uninit : Uninit} {key : MultiLevelKey} {initial : Option DataEntry}
    {s : UpdateSystem} (hopen : s.engine.isOpen = true)
    (htracks : Tracks versionOf (· + 1) initial (s.register uninit key))
    {actions : List UpdateAction}
    (h : StepRun.Along (step uninit key) (Allowed key) s actions)
    (hfew : (s.run uninit key actions).writes.length < 2 ^ 64) :
    (s.run uninit key actions).engine.isOpen = true ∧
      Tracks versionOf (· + 1) initial ((s.run uninit key actions).register uninit key) := by
  induction actions generalizing s with
  | nil => exact ⟨hopen, htracks⟩
  | cons action actions ih =>
      obtain ⟨hstill, hstep⟩ := step_register uninit hopen h.1
      have hle := writes_le_run uninit key (s.step uninit key action) actions
      exact ih hstill (htracks.step iterate_succ_inj hstep (hle.trans hfew.le)) h.2 hfew

/-- Without an overflow the versions of a chain go up by one as numbers. -/
theorem toNat_of_chained {value : Option DataEntry} {writes : List (Option DataEntry × Option DataEntry)}
    (h : Chained versionOf (· + 1) value writes)
    (hlt : (versionOf value).toNat + writes.length < 2 ^ 64) :
    ∀ write ∈ writes, (versionOf write.2).toNat = (versionOf write.1).toNat + 1 := by
  induction writes generalizing value with
  | nil => exact fun _ hmem => absurd hmem List.not_mem_nil
  | cons write writes ih =>
      obtain ⟨hused, hnext, hrest⟩ := h
      rw [List.length_cons] at hlt
      have hsucc : (versionOf write.2).toNat = (versionOf value).toNat + 1 := by
        rw [hnext, UInt64.toNat_add, UInt64.toNat_one, Nat.mod_eq_of_lt (by omega)]
      rw [List.forall_mem_cons, hused]
      exact ⟨hsucc, ih hrest (by omega)⟩

/-- **No lost update.**  Whatever any number of clients do between flushes and
calls on other keys, every successful write was computed from what the one
before it wrote, which is what is read in the end; versions go up by one; and a
write that returns an error changes no read of any key. -/
theorem no_lost_update (e : LSMTreeEngine) (hopen : e.isOpen = true) (uninit : Uninit)
    (key : MultiLevelKey) (actions : List UpdateAction)
    (hallowed : StepRun.Along (step uninit key) (Allowed key) (start e) actions)
    (hfew : ((start e).run uninit key actions).writes.length < 2 ^ 64) :
    let s := (start e).run uninit key actions
    let initial := (e.get uninit key).1.toOption
    Chained versionOf (· + 1) initial s.writes ∧
      (s.engine.get uninit key).1.toOption = last initial s.writes ∧
      ((versionOf initial).toNat + s.writes.length < 2 ^ 64 →
        ∀ write ∈ s.writes, (versionOf write.2).toNat = (versionOf write.1).toNat + 1) ∧
      ∀ entry expectedVersion f, entry.deleted = false →
        (s.engine.putIfVersionMatch uninit key entry expectedVersion).1 = .error f →
        ∀ other, ((s.engine.putIfVersionMatch uninit key entry expectedVersion).2.get uninit other).1
          = (s.engine.get uninit other).1 := by
  intro s initial
  obtain ⟨hstill, htracks⟩ := tracks_run (s := start e) hopen (tracks_initial initial) hallowed hfew
  refine ⟨htracks.chained, htracks.current, toNat_of_chained htracks.chained, ?_⟩
  intro entry expectedVersion f hlive herror other
  rcases putIfVersionMatch_cases hstill uninit key hlive expectedVersion with
    ⟨f', e', heq, -, hreads⟩ | ⟨e', heq, -⟩
  · rw [heq]
    exact hreads.1 other
  · rw [heq] at herror
    cases herror

/-- Two clients read, both write, a flush succeeds, the second one tries again. -/
def sampleActions : List UpdateAction :=
  [.get 0, .get 1, .putIfVersionMatch 0 ⟨[1], 0, 0, false⟩, .putIfVersionMatch 1 ⟨[2], 0, 0, false⟩,
    .other (.flush ⟨sampleTime 1, .written⟩ ⟨sampleTime 2, .written⟩),
    .get 1, .putIfVersionMatch 1 ⟨[3], 0, 0, false⟩]

theorem allowed_sampleActions :
    StepRun.Along (step ⟨0, 0, 0, 0, 0⟩ ⟨[97], []⟩) (Allowed ⟨[97], []⟩) (start sampleOpened)
      sampleActions := by
  refine ⟨trivial, trivial, rfl, rfl, ?_, trivial, rfl, trivial⟩
  exact cleanFlush_of_noImmutable (by decide +kernel) (by decide +kernel) (by decide +kernel)
    (by decide +kernel)

/-- Of the three writes two succeed, each computed from the value before it. -/
theorem no_lost_update_sample :
    let s := (start sampleOpened).run ⟨0, 0, 0, 0, 0⟩ ⟨[97], []⟩ sampleActions
    Chained versionOf (· + 1) none s.writes ∧ s.writes.length = 2 := by
  intro s
  have hcount : s.writes.length = 2 := by decide +kernel
  have h := no_lost_update sampleOpened (by decide +kernel) ⟨0, 0, 0, 0, 0⟩ ⟨[97], []⟩ sampleActions
    allowed_sampleActions (by rw [show _ = 2 from hcount]; decide)
  exact ⟨h.1, hcount⟩

end UpdateSystem

end QcDatabase
