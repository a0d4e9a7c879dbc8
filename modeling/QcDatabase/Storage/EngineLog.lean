/-
# The log under the engine

What the engine does to its log: it opens and replays it, appends to it, syncs and
closes it, and a new object gets the file (`wal_callStep`).  So a property of logs
that these keep is one of every run.

Such a property is that the file is empty: after the replay of `open` the stream of
the log has failed, and nothing that is appended reaches the file (`QuietLog`).
-/
import QcDatabase.Storage.IntactTables
import QcDatabase.Storage.Refinement

namespace QcDatabase

/-! ## Empty logs -/

namespace WAL

/-- A property of logs that every use the engine makes of its log keeps. -/
structure Kept (P : WAL → Prop) : Prop where
  append : ∀ w entry, P w → P (w.append entry).2
  sync : ∀ w, P w → P w.sync.2
  close : ∀ w, P w → P w.close.2
  openFails : ∀ w access f w', P w → w.open access = (.error f, w') → P w'
  openReplay : ∀ w access w' now, P w → w.open access = (.ok (), w') →
    P (w'.replayFrom 0 now).2
  create : ∀ w walFile, P w → P (WAL.create walFile w.content)

/-- A log with an empty file: closed, or open after a replay. -/
def QuietLog (w : WAL) : Prop :=
  SilentLog w ∨ (w.isOpen = false ∧ w.file.isOpen = false ∧ w.bytes = [])

theorem QuietLog.bytes {w : WAL} (h : w.QuietLog) : w.bytes = [] := by
  rcases h with h | ⟨-, -, h⟩
  · exact h.bytes
  · exact h

theorem quietLog_create (walFile : String) {content : Option Bytes}
    (h : content.getD [] = []) : (create walFile content).QuietLog :=
  Or.inr ⟨rfl, rfl, h⟩

/-- Opening a log that is quiet and replaying it. -/
theorem QuietLog.open_replay {w w' : WAL} (h : w.QuietLog) {access : LogAccess}
    (hopen : w.open access = (.ok (), w')) (now : ℕ → Timestamp) :
    (w'.replayFrom 0 now).1 = .ok [] ∧ SilentLog (w'.replayFrom 0 now).2 := by
  rcases h with h | ⟨hclosed, hdetached, hbytes⟩
  · -- the log is open already, its stream failed
    rw [WAL.open.eq_def, if_pos h.isOpen] at hopen
    obtain rfl := (Prod.mk.inj hopen).2
    rw [replayFrom_of_fail h.isOpen h.failed]
    exact ⟨rfl, h.isOpen, h.attached, h.failed, h.bytes⟩
  · obtain rfl := access_of_open_ok hclosed hdetached hopen
    rw [open_of_detached hclosed hdetached, hbytes] at hopen
    obtain rfl := (Prod.mk.inj hopen).2
    obtain ⟨f, hrun, hattached, hfailed⟩ := replayFrom_of_frames (w := { w with
        content := some [], file := ⟨true, 0, false, false, false⟩, isOpen := true })
      rfl ⟨rfl, rfl⟩ (List.forall_mem_nil WALEntry.Loggable) [] (by simp) rfl 0 now
    rw [show (List.length [] : ℕ) = 0 from rfl, hrun]
    exact ⟨rfl, rfl, hattached, hfailed, rfl⟩

theorem kept_quietLog : Kept QuietLog where
  append w entry h := by
    rcases h with h | ⟨hclosed, hdetached, hbytes⟩
    · obtain ⟨wal, happend, hwal⟩ := h.append entry
      rw [happend]
      exact Or.inl hwal
    · rw [append, if_pos (by simp [hclosed])]
      exact Or.inr ⟨hclosed, hdetached, hbytes⟩
  sync w h := by
    rcases h with h | ⟨hclosed, hdetached, hbytes⟩
    · rw [h.sync]
      exact Or.inl h
    · rw [sync, if_pos (by simp [hclosed])]
      exact Or.inr ⟨hclosed, hdetached, hbytes⟩
  close w h := by
    rcases h with h | ⟨hclosed, hdetached, hbytes⟩
    · refine Or.inr ⟨?_, ?_, h.close_bytes⟩
      · rw [close, if_neg (by simp [h.isOpen])]
      · rw [close, if_neg (by simp [h.isOpen])]
        simp [FileStream.flush, FileStream.close, h.attached]
    · rw [close, if_pos (by simp [hclosed])]
      exact Or.inr ⟨hclosed, hdetached, hbytes⟩
  openFails w access f w' h hopen := by
    rcases h with h | ⟨hclosed, hdetached, hbytes⟩
    · rw [WAL.open.eq_def, if_pos h.isOpen] at hopen
      cases hopen
    · obtain ⟨hclosed', hdetached', hbytes'⟩ := closed_of_open_error hclosed hdetached hopen
      refine Or.inr ⟨hclosed', hdetached', ?_⟩
      rcases hbytes' with hbytes' | hbytes'
      · rw [hbytes', hbytes]
      · exact hbytes'
  openReplay w access w' now h hopen := Or.inl (h.open_replay hopen now).2
  create w walFile h := quietLog_create walFile h.bytes

end WAL

namespace LSMTreeEngine

/-! ## What the calls do to the log -/

section Log

variable {P : WAL → Prop} {e : LSMTreeEngine}

theorem wal_get (e : LSMTreeEngine) (uninit : Uninit) (key : MultiLevelKey) :
    (e.get uninit key).2.wal = e.wal := by
  obtain ⟨ts, hget, -⟩ := e.get_frame uninit key
  rw [hget]
  rfl

theorem wal_put (hP : WAL.Kept P) (h : P e.wal) (key : MultiLevelKey) (entry : DataEntry) :
    P (e.put key entry).2.wal := by
  have happend := hP.append e.wal ⟨WALEntryType.put, key, entry, 0⟩ h
  rw [put]
  split_ifs
  · exact h
  · rcases hwal : e.wal.append ⟨WALEntryType.put, key, entry, 0⟩ with ⟨f | _, wal⟩
    · rw [hwal] at happend
      exact happend
    · rw [hwal] at happend
      exact happend

theorem wal_remove (hP : WAL.Kept P) (h : P e.wal) (key : MultiLevelKey) (now : Timestamp) :
    P (e.remove key now).2.wal := by
  have happend := hP.append e.wal (removeRecord key now) h
  rw [removeRecord] at happend
  rw [remove]
  split_ifs
  · exact h
  · dsimp only at happend ⊢
    rcases hwal : e.wal.append ⟨WALEntryType.delete, key,
        { DataEntry.default now with deleted := true, timestamp := now }, 0⟩ with ⟨f | _, wal⟩
    · rw [hwal] at happend
      exact happend
    · rw [hwal] at happend
      exact happend

theorem wal_multiPut (hP : WAL.Kept P) (h : P e.wal) (entries : List (MultiLevelKey × DataEntry)) :
    P (e.multiPut entries).2.wal :=
  invariant_multiPut (P := fun e => P e.wal) (fun _ entry _ he => wal_put hP he entry.1 entry.2) h

theorem wal_multiGetFrom (e : LSMTreeEngine) (uninit : Uninit) (clock : ℕ → Timestamp) (i : ℕ)
    (keys : List MultiLevelKey) : (e.multiGetFrom uninit clock i keys).2.wal = e.wal :=
  invariant_multiGetFrom (P := fun e' => e'.wal = e.wal)
    (fun e' key h => (wal_get e' uninit key).trans h) rfl clock i keys

theorem wal_flushMemtable (hP : WAL.Kept P) (h : P e.wal) (first second : TableWrite) :
    P (e.flushMemtable first second).2.wal := by
  obtain ⟨_, _, _, _, wal, hwal, heq⟩ := e.flushMemtable_frame first second
  rw [heq]
  rcases hwal with rfl | ⟨record, rfl⟩
  · exact h
  · exact hP.append _ _ h

theorem wal_compactSstables (e : LSMTreeEngine) (w : TableWrite) :
    (e.compactSstables w).2.wal = e.wal := by
  rcases hts : e.sstables with _ | ⟨sstable1, _ | ⟨sstable2, sstables⟩⟩
  · rw [compactSstables_of_lt (by rw [hts]; decide)]
  · rw [compactSstables_of_lt (by rw [hts]; exact Nat.lt_succ_self 1)]
  · rw [compactSstables_eq hts]

theorem wal_open (hP : WAL.Kept P) (h : P e.wal) (uninit : Uninit) (access : LogAccess)
    (decoded applied : ℕ → Timestamp) : P (e.open uninit access decoded applied).2.wal := by
  rw [LSMTreeEngine.open]
  split_ifs
  · exact h
  rcases hwal : e.wal.open access with ⟨f | _, wal⟩
  · exact hP.openFails _ _ _ _ h hwal
  · have hreplay := hP.openReplay _ _ _ decoded h hwal
    dsimp only
    rw [recoverFromWal]
    dsimp only
    rcases hrun : wal.replayFrom 0 decoded with ⟨f | entries, wal'⟩
    · rw [hrun] at hreplay
      exact hreplay
    · rw [hrun] at hreplay
      exact hreplay

/-- **No call does anything else to the log.** -/
theorem wal_callStep (hP : WAL.Kept P) (h : P e.wal) (uninit : Uninit) (call : PublicCall) :
    P (e.callStep uninit call).wal := by
  cases call with
  | get key =>
      rw [callStep, wal_get]
      exact h
  | put key entry => exact wal_put hP h key entry
  | putIfVersionMatch key entry expectedVersion =>
      have hread := h
      rw [← wal_get e uninit key] at hread
      exact invariant_putIfVersionMatch (P := fun e => P e.wal) h hread
        (fun entry => wal_put hP hread key entry) entry expectedVersion
  | remove key now => exact wal_remove hP h key now
  | removeIfVersionMatch key expectedVersion now =>
      have hread := h
      rw [← wal_get e uninit key] at hread
      exact invariant_removeIfVersionMatch (P := fun e => P e.wal) h hread
        (wal_remove hP hread key now) expectedVersion
  | rangeScan query =>
      obtain ⟨ts, hscan, -⟩ := e.rangeScan_frame uninit query
      rw [callStep, hscan]
      exact h
  | multiGet clock keys =>
      rw [callStep, multiGet]
      dsimp only
      rw [wal_multiGetFrom]
      exact h
  | multiPut entries => exact wal_multiPut hP h entries
  | flush first second =>
      exact invariant_flush (P := fun e => P e.wal) h
        (fun _ => wal_flushMemtable hP h first second) fun e h => hP.sync e.wal h
  | compact merged =>
      rw [callStep, compact]
      split_ifs
      · exact h
      · rw [wal_compactSstables]
        exact h
  | backgroundWork first second merged =>
      rw [callStep]
      split_ifs
      · refine invariant_backgroundWork (P := fun e => P e.wal) h
          (wal_flushMemtable hP h first second) fun e h => ?_
        rw [wal_compactSstables]
        exact h
      · exact h
  | close first second =>
      -- `close` flushes what is in memory before it closes the log
      have hflushed : P (if e.memtable.size ≠ 0 then (e.flushMemtable first second).2 else e).wal := by
        split_ifs
        · exact wal_flushMemtable hP h first second
        · exact h
      rw [callStep, close]
      cases hopen : e.isOpen with
      | false => exact h
      | true => exact hP.close _ hflushed
  | «open» access decoded applied => exact wal_open hP h uninit access decoded applied
  | recreate maxSstables => exact hP.create _ _ h

end Log

/-- An engine object after calls that keep its tables intact, on a data directory whose
log is empty or missing at first. -/
def ReachedOnEmptyLog (uninit : Uninit) (e : LSMTreeEngine) : Prop :=
  ∃ dataDir dir log maxSstables calls, log.getD [] = [] ∧
    StepRun.Along (fun e call => callStep e uninit call) (TablesSafe uninit)
        (create dataDir dir log maxSstables) calls ∧
      e = (create dataDir dir log maxSstables).callRun uninit calls

variable {uninit uninit' : Uninit} {e : LSMTreeEngine}

theorem ReachedOnEmptyLog.intact (h : ReachedOnEmptyLog uninit e) : e.TablesIntact := by
  obtain ⟨dataDir, dir, log, maxSstables, calls, -, halong, heq⟩ := h
  exact ReachedSafely.intact ⟨dataDir, dir, log, maxSstables, calls, halong, heq⟩

/-- **Run lemma.**  The log file stays empty. -/
theorem ReachedOnEmptyLog.quietLog (h : ReachedOnEmptyLog uninit e) : e.wal.QuietLog := by
  obtain ⟨dataDir, dir, log, maxSstables, calls, hlog, -, rfl⟩ := h
  exact StepRun.invariant (fun e : LSMTreeEngine => e.wal.QuietLog)
    (fun e call hquiet => wal_callStep WAL.kept_quietLog hquiet uninit call)
    (WAL.quietLog_create _ hlog) calls

end LSMTreeEngine

end QcDatabase
