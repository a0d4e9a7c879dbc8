/-
# Which calls of the storage layer lock a mutex twice

A public function of the engine is a section under the mutex of the engine, and what
it calls there are the sections of the log, the memory tables and the tables, one
after the other: these functions are balanced.  `multi_get` and `multi_put` call
`get` and `put` without the mutex, and `SSTable::read` calls `load_index`, which
locks nothing.

`put_if_version_match` and `remove_if_version_match` call `get` from their own
section, and `WAL::truncate` calls `replay_from` from its section: in an open engine
and on an open log these lock a mutex that their thread owns
(`disciplined_iff_locksOnce`).
-/
import QcDatabase.Storage.Flush
import QcDatabase.Storage.StorageTraces

open SharedMutex

namespace QcDatabase

/-- The thread owns no mutex. -/
def noStorageMutex : Held StorageMutex := fun _ => none

/-- The thread owns the mutex of the engine, and no other one. -/
def engineLocked (mode : Mode) : Held StorageMutex :=
  Function.update noStorageMutex .engine (some mode)

/-! ## Tables -/

namespace SSTable

variable {held : Held StorageMutex} {mutex : StorageMutex} {t : SSTable} {uninit : Uninit}
  {dir : Directory}

theorem balanced_ensureIndexTraced : (t.ensureIndexTraced uninit dir).Balanced held := by
  rw [ensureIndexTraced]
  split_ifs
  · exact Traced.balanced_pure _
  · exact Traced.balanced_pure _

theorem balanced_readTraced (hfree : held mutex = none) (key : MultiLevelKey) :
    (t.readTraced mutex uninit dir key).Balanced held := by
  refine Traced.Balanced.guarded ?_ hfree
  refine balanced_ensureIndexTraced.bind ?_
  rintro ⟨f | _, t'⟩
  · exact Traced.balanced_pure _
  · exact Traced.balanced_pure _

theorem balanced_rangeScanTraced (hfree : held mutex = none) (query : RangeQuery) :
    (t.rangeScanTraced mutex uninit dir query).Balanced held := by
  refine Traced.Balanced.guarded ?_ hfree
  refine balanced_ensureIndexTraced.bind ?_
  rintro ⟨f | _, t'⟩
  · exact Traced.balanced_pure _
  · exact Traced.balanced_pure _

end SSTable

/-! ## The log -/

namespace WAL

/-- **`truncate` locks its mutex twice** whenever the log is open. -/
theorem disciplined_truncateTraced_iff {w : WAL} {sequenceNumber : UInt64} {now : ℕ → Timestamp}
    {writable accessible : Bool} :
    (w.truncateTraced sequenceNumber now writable accessible).Disciplined noStorageMutex
      ↔ w.isOpen = false := by
  rw [truncateTraced, Traced.disciplined_guarded_iff]
  rcases hopen : w.isOpen with _ | _
  · exact iff_of_true ⟨rfl, Traced.disciplined_pure _⟩ rfl
  · refine iff_of_false ?_ Bool.false_ne_true.symm
    rintro ⟨-, h⟩
    have hreplay := (Traced.disciplined_bind_iff.mp h).1
    rw [replayFromTraced, Traced.disciplined_guarded_iff, Function.update_self] at hreplay
    cases hreplay.1

theorem balanced_destroyTraced {held : Held StorageMutex} (hfree : held .wal = none) (w : WAL) :
    w.destroyTraced.Balanced held := by
  rw [destroyTraced]
  split_ifs
  · refine (Traced.balanced_section hfree _ _).bind ?_
    exact fun _ => Traced.balanced_pure _
  · exact Traced.balanced_pure _

end WAL

/-! ## Inside the section of the engine -/

namespace LSMTreeEngine

variable {mode : Mode} {e : LSMTreeEngine} {uninit : Uninit} {dir : Directory}

theorem balanced_applyWalEntriesTraced (now : ℕ → Timestamp) (i : ℕ) (entries : List WALEntry)
    (m : MemTable) : (applyWalEntriesTraced now i entries m).Balanced (engineLocked mode) := by
  induction entries generalizing i m with
  | nil => exact Traced.balanced_pure _
  | cons entry entries ih =>
      refine Traced.Balanced.bind ?_ fun m' => ih (i + 1) m'
      rw [applyWalEntryTraced]
      split_ifs
      · exact (Traced.balanced_section rfl _ _).bind fun _ => Traced.balanced_pure _
      · exact (Traced.balanced_section rfl _ _).bind fun _ => Traced.balanced_pure _
      · exact Traced.balanced_pure _

theorem balanced_recoverFromWalTraced (decoded applied : ℕ → Timestamp) :
    (e.recoverFromWalTraced decoded applied).Balanced (engineLocked mode) := by
  refine (Traced.balanced_section rfl _ _).bind ?_
  rintro ⟨f | entries, wal⟩
  · exact Traced.balanced_pure _
  · refine (balanced_applyWalEntriesTraced applied 0 entries e.memtable).bind ?_
    exact fun _ => Traced.balanced_pure _

theorem balanced_getFromSstablesTraced (key : MultiLevelKey) (position : ℕ) (ts : List SSTable) :
    (getFromSstablesTraced uninit dir key position ts).Balanced (engineLocked mode) := by
  induction ts generalizing position with
  | nil => exact Traced.balanced_pure _
  | cons t newer ih =>
      refine (ih (position + 1)).bind ?_
      rintro ⟨f | entry, newer'⟩
      · refine (SSTable.balanced_readTraced rfl key).bind ?_
        rintro ⟨f' | entry, t'⟩
        · exact Traced.balanced_pure _
        · exact Traced.balanced_pure _
      · exact Traced.balanced_pure _

theorem balanced_getStoredTraced (key : MultiLevelKey) :
    (e.getStoredTraced uninit key).Balanced (engineLocked mode) := by
  refine (balanced_getFromSstablesTraced key 0 e.sstables).bind ?_
  rintro ⟨f | entry, ts⟩
  · exact Traced.balanced_pure _
  · exact Traced.balanced_pure _

theorem balanced_scanSstablesTraced (query : RangeQuery) (position : ℕ) (ts : List SSTable)
    (merged : SortedMap MultiLevelKey DataEntry) :
    (scanSstablesTraced uninit dir query position ts merged).Balanced (engineLocked mode) := by
  induction ts generalizing position with
  | nil => exact Traced.balanced_pure _
  | cons t newer ih =>
      refine (ih (position + 1)).bind ?_
      rintro ⟨_ | merged', newer'⟩
      · exact Traced.balanced_pure _
      · refine (SSTable.balanced_rangeScanTraced rfl query).bind ?_
        exact fun _ => Traced.balanced_pure _

theorem balanced_scanStoredTraced (query : RangeQuery)
    (merged : SortedMap MultiLevelKey DataEntry) :
    (e.scanStoredTraced uninit query merged).Balanced (engineLocked mode) :=
  (balanced_scanSstablesTraced query 0 e.sstables merged).bind fun _ => Traced.balanced_pure _

theorem balanced_flushCurrentTraced (w : TableWrite) :
    (e.flushCurrentTraced w).Balanced (engineLocked mode) := by
  refine (Traced.balanced_section rfl _ _).bind fun data => ?_
  refine (Traced.balanced_section rfl _ _).bind ?_
  rintro ⟨f | _, t, dir'⟩
  · exact Traced.balanced_pure _
  · refine (Traced.balanced_section rfl _ _).bind ?_
    exact fun _ => Traced.balanced_pure _

theorem balanced_flushMemtableTraced (first second : TableWrite) :
    (e.flushMemtableTraced first second).Balanced (engineLocked mode) := by
  refine (Traced.balanced_section rfl _ _).bind fun size => ?_
  split_ifs
  · exact Traced.balanced_pure _
  · rcases e.immutableMemtable with _ | m
    · exact balanced_flushCurrentTraced second
    · refine (Traced.balanced_section rfl _ _).bind fun data => ?_
      refine (Traced.balanced_section rfl _ _).bind ?_
      rintro ⟨f | _, t, dir'⟩
      · exact Traced.balanced_pure _
      · exact balanced_flushCurrentTraced second

theorem balanced_compactSstablesTraced (w : TableWrite) :
    (e.compactSstablesTraced w).Balanced (engineLocked mode) := by
  rw [compactSstablesTraced]
  rcases e.sstables with _ | ⟨sstable1, _ | ⟨sstable2, sstables⟩⟩
  · exact Traced.balanced_pure _
  · exact Traced.balanced_pure _
  · refine (Traced.balanced_section rfl _ _).bind ?_
    rintro ⟨f | _, t, dir'⟩
    · exact Traced.balanced_pure _
    · exact Traced.balanced_pure _

theorem balanced_finishCloseTraced (first second : TableWrite) :
    (e.finishCloseTraced first second).Balanced (engineLocked mode) := by
  refine (Traced.balanced_section rfl _ _).bind fun size => ?_
  refine Traced.Balanced.bind (t := if size ≠ 0 then _ else _) ?_ ?_
  · split_ifs
    · exact balanced_flushMemtableTraced first second
    · exact Traced.balanced_pure _
  · rintro ⟨r, e'⟩
    exact (Traced.balanced_section rfl _ _).bind fun _ => Traced.balanced_pure _

/-! ## Operations of the engine -/

/-- A section of the engine whose body calls nothing that locks its mutex. -/
theorem balanced_engineSection {α : Type} {body : Traced StorageMutex α}
    (h : body.Balanced (engineLocked mode)) :
    (Traced.guarded .engine mode body).Balanced noStorageMutex :=
  h.guarded rfl

/-- The same for an operation that does nothing while the engine is closed. -/
theorem balanced_openSection {α : Type} {refusal : α} {body : Traced StorageMutex α}
    (h : body.Balanced (engineLocked mode)) :
    (Traced.guarded .engine mode (if !e.isOpen then pure refusal else body)).Balanced
      noStorageMutex := by
  refine balanced_engineSection ?_
  split_ifs
  · exact Traced.balanced_pure _
  · exact h

theorem balanced_openTraced (access : LogAccess) (decoded applied : ℕ → Timestamp) :
    (e.openTraced uninit access decoded applied).Balanced noStorageMutex := by
  refine balanced_engineSection ?_
  split_ifs
  · exact Traced.balanced_pure _
  · refine (Traced.balanced_section rfl _ _).bind ?_
    rintro ⟨f | _, wal⟩
    · exact Traced.balanced_pure _
    · refine (balanced_recoverFromWalTraced decoded applied).bind ?_
      rintro ⟨f | _, e'⟩
      · exact Traced.balanced_pure _
      · exact Traced.balanced_pure _

theorem balanced_getTraced (key : MultiLevelKey) :
    (e.getTraced uninit key).Balanced noStorageMutex := by
  refine balanced_openSection ?_
  refine (Traced.balanced_section rfl _ _).bind ?_
  rintro (f | entry)
  · rcases e.immutableMemtable with _ | m
    · exact balanced_getStoredTraced key
    · refine (Traced.balanced_section rfl _ _).bind ?_
      rintro (f' | entry)
      · exact balanced_getStoredTraced key
      · exact Traced.balanced_pure _
  · exact Traced.balanced_pure _

theorem balanced_putTraced (key : MultiLevelKey) (entry : DataEntry) :
    (e.putTraced key entry).Balanced noStorageMutex := by
  refine balanced_openSection ?_
  refine (Traced.balanced_section rfl _ _).bind ?_
  rintro ⟨f | _, wal⟩
  · exact Traced.balanced_pure _
  · exact (Traced.balanced_section rfl _ _).bind fun _ => Traced.balanced_pure _

theorem balanced_removeTraced (key : MultiLevelKey) (now : Timestamp) :
    (e.removeTraced key now).Balanced noStorageMutex := by
  refine balanced_openSection ?_
  refine (Traced.balanced_section rfl _ _).bind ?_
  rintro ⟨f | _, wal⟩
  · exact Traced.balanced_pure _
  · exact (Traced.balanced_section rfl _ _).bind fun _ => Traced.balanced_pure _

theorem balanced_multiGetFromTraced (clock : ℕ → Timestamp) (i : ℕ) (keys : List MultiLevelKey) :
    (e.multiGetFromTraced uninit clock i keys).Balanced noStorageMutex := by
  induction keys generalizing e i with
  | nil => exact Traced.balanced_pure _
  | cons key keys ih =>
      -- a section is over before the next one begins
      refine (balanced_getTraced key).bind ?_
      rintro ⟨result, e'⟩
      refine (ih (i + 1)).bind ?_
      rintro ⟨entries, e''⟩
      rcases result with f | entry
      · exact Traced.balanced_pure _
      · exact Traced.balanced_pure _

theorem balanced_multiGetTraced (clock : ℕ → Timestamp) (keys : List MultiLevelKey) :
    (e.multiGetTraced uninit clock keys).Balanced noStorageMutex :=
  (balanced_multiGetFromTraced clock 0 keys).bind fun _ => Traced.balanced_pure _

theorem balanced_multiPutTraced (entries : List (MultiLevelKey × DataEntry)) :
    (e.multiPutTraced entries).Balanced noStorageMutex := by
  induction entries generalizing e with
  | nil => exact Traced.balanced_pure _
  | cons entry entries ih =>
      refine (balanced_putTraced entry.1 entry.2).bind ?_
      rintro ⟨f | _, e'⟩
      · exact Traced.balanced_pure _
      · exact ih

theorem balanced_rangeScanTraced (query : RangeQuery) :
    (e.rangeScanTraced uninit query).Balanced noStorageMutex := by
  refine balanced_openSection ?_
  refine (Traced.balanced_section rfl _ _).bind ?_
  rintro (_ | memtableResult)
  · exact Traced.balanced_pure _
  · rcases e.immutableMemtable with _ | m
    · exact balanced_scanStoredTraced query _
    · refine (Traced.balanced_section rfl _ _).bind ?_
      rintro (_ | scan)
      · exact Traced.balanced_pure _
      · exact balanced_scanStoredTraced query _

theorem balanced_sizeTraced : e.sizeTraced.Balanced noStorageMutex := by
  refine balanced_engineSection ?_
  refine (Traced.balanced_section rfl _ _).bind fun size => ?_
  refine Traced.Balanced.bind ?_ fun _ => Traced.balanced_pure _
  rcases e.immutableMemtable with _ | m
  · exact Traced.balanced_pure _
  · exact Traced.balanced_section rfl _ _

theorem balanced_flushTraced (first second : TableWrite) :
    (e.flushTraced first second).Balanced noStorageMutex := by
  refine balanced_openSection ?_
  refine (balanced_flushMemtableTraced first second).bind ?_
  rintro ⟨f | _, e'⟩
  · exact Traced.balanced_pure _
  · exact (Traced.balanced_section rfl _ _).bind fun _ => Traced.balanced_pure _

theorem balanced_compactTraced (w : TableWrite) : (e.compactTraced w).Balanced noStorageMutex :=
  balanced_openSection (balanced_compactSstablesTraced w)

theorem balanced_closeTraced (found : LSMTreeEngine) (first second : TableWrite) :
    (e.closeTraced found first second).Balanced noStorageMutex := by
  refine balanced_openSection ?_
  -- the mutex is locked again as it was, so the rest runs in the same section
  exact (balanced_finishCloseTraced first second).relocked rfl

theorem balanced_destroyTraced (found : LSMTreeEngine) (first second : TableWrite) :
    (e.destroyTraced found first second).Balanced noStorageMutex := by
  refine Traced.Balanced.bind (t := if e.isOpen then _ else _) ?_ ?_
  · split_ifs
    · exact balanced_closeTraced found first second
    · exact Traced.balanced_pure _
  · rintro ⟨r, e'⟩
    exact (WAL.balanced_destroyTraced rfl e'.wal).bind fun _ => Traced.balanced_pure _

/-- **The background thread** never locks a mutex that it owns. -/
theorem balanced_backgroundWorkTraced (wakeUps : ℕ) (stopped : Bool)
    (first second merged : TableWrite) :
    (e.backgroundWorkTraced wakeUps stopped first second merged).Balanced noStorageMutex := by
  have hwait : ∀ n, (waitTraced n).Balanced
      (Function.update noStorageMutex .flush (some .exclusive)) := by
    intro n
    induction n with
    | zero => exact Traced.balanced_pure _
    | succ n ih => exact ih.relocked rfl
  refine ((hwait wakeUps).guarded rfl).bind fun _ => ?_
  rcases stopped with _ | _
  · refine balanced_engineSection ?_
    refine Traced.Balanced.bind (t := if e.memtable.shouldFlush then _ else _) ?_ ?_
    · split_ifs
      · exact balanced_flushMemtableTraced first second
      · exact Traced.balanced_pure _
    · rintro ⟨r, e'⟩
      refine Traced.Balanced.bind (t := if e'.needCompaction then _ else _) ?_
        fun _ => Traced.balanced_pure _
      split_ifs
      · exact balanced_compactSstablesTraced merged
      · exact Traced.balanced_pure _
  · exact Traced.balanced_pure _

/-- A call of `get` from a section of the engine. -/
theorem not_disciplined_getTraced (key : MultiLevelKey) :
    ¬ (e.getTraced uninit key).Disciplined (engineLocked mode) := by
  intro h
  rw [getTraced, Traced.disciplined_guarded_iff, engineLocked, Function.update_self] at h
  cases h.1

/-- **A section that begins with `get`** locks the mutex of the engine twice, unless the
engine is closed. -/
theorem disciplined_nestedGet_iff {α : Type} {refusal : α} {key : MultiLevelKey}
    {rest : Result DataEntry × LSMTreeEngine → Traced StorageMutex α} :
    (Traced.guarded .engine mode
        (if !e.isOpen then pure refusal else e.getTraced uninit key >>= rest)).Disciplined
      noStorageMutex ↔ e.isOpen = false := by
  rw [Traced.disciplined_guarded_iff]
  rcases hopen : e.isOpen with _ | _
  · exact iff_of_true ⟨rfl, Traced.disciplined_pure _⟩ rfl
  · refine iff_of_false ?_ Bool.false_ne_true.symm
    rintro ⟨-, h⟩
    exact not_disciplined_getTraced key (Traced.disciplined_bind_iff.mp h).1

theorem disciplined_putIfVersionMatchTraced_iff {key : MultiLevelKey} {entry : DataEntry}
    {expectedVersion : Version} :
    (e.putIfVersionMatchTraced uninit key entry expectedVersion).Disciplined noStorageMutex
      ↔ e.isOpen = false :=
  disciplined_nestedGet_iff

theorem disciplined_removeIfVersionMatchTraced_iff {key : MultiLevelKey}
    {expectedVersion : Version} {now : Timestamp} :
    (e.removeIfVersionMatchTraced uninit key expectedVersion now).Disciplined noStorageMutex
      ↔ e.isOpen = false :=
  disciplined_nestedGet_iff

end LSMTreeEngine

/-! ## Every public operation -/

/-- A public function of one of the four classes with the object it is called on and
its arguments. -/
inductive StorageOperation where
  | memtableGet (m : MemTable) (key : MultiLevelKey)
  | memtablePut (m : MemTable) (key : MultiLevelKey) (entry : DataEntry)
  | memtableRemove (m : MemTable) (key : MultiLevelKey) (now : Timestamp)
  | memtableRangeScan (m : MemTable) (query : RangeQuery)
  | memtableSize (m : MemTable)
  | memtableGetAllData (m : MemTable)
  | memtableClear (m : MemTable)
  | sstableWrite (t : SSTable) (dir : Directory) (data : SortedMap MultiLevelKey DataEntry)
      (outcome : WriteOutcome)
  | sstableRead (t : SSTable) (uninit : Uninit) (dir : Directory) (key : MultiLevelKey)
  | sstableRangeScan (t : SSTable) (uninit : Uninit) (dir : Directory) (query : RangeQuery)
  | sstableLoadIndex (t : SSTable) (uninit : Uninit) (dir : Directory)
  | walOpen (w : WAL) (access : LogAccess)
  | walClose (w : WAL)
  | walAppend (w : WAL) (entry : WALEntry)
  | walSync (w : WAL)
  | walReplayFrom (w : WAL) (sequenceNumber : UInt64) (now : ℕ → Timestamp)
  | walTruncate (w : WAL) (sequenceNumber : UInt64) (now : ℕ → Timestamp)
      (writable accessible : Bool)
  | walFileSize (w : WAL)
  | walDestroy (w : WAL)
  | open (e : LSMTreeEngine) (uninit : Uninit) (access : LogAccess) (decoded applied : ℕ → Timestamp)
  | close (e found : LSMTreeEngine) (first second : TableWrite)
  | get (e : LSMTreeEngine) (uninit : Uninit) (key : MultiLevelKey)
  | put (e : LSMTreeEngine) (key : MultiLevelKey) (entry : DataEntry)
  | putIfVersionMatch (e : LSMTreeEngine) (uninit : Uninit) (key : MultiLevelKey)
      (entry : DataEntry) (expectedVersion : Version)
  | remove (e : LSMTreeEngine) (key : MultiLevelKey) (now : Timestamp)
  | removeIfVersionMatch (e : LSMTreeEngine) (uninit : Uninit) (key : MultiLevelKey)
      (expectedVersion : Version) (now : Timestamp)
  | rangeScan (e : LSMTreeEngine) (uninit : Uninit) (query : RangeQuery)
  | multiGet (e : LSMTreeEngine) (uninit : Uninit) (clock : ℕ → Timestamp)
      (keys : List MultiLevelKey)
  | multiPut (e : LSMTreeEngine) (entries : List (MultiLevelKey × DataEntry))
  | flush (e : LSMTreeEngine) (first second : TableWrite)
  | compact (e : LSMTreeEngine) (merged : TableWrite)
  | backup (e : LSMTreeEngine) (target : Directory) (outcome : LSMTreeEngine.CopyOutcome)
      (missing : String)
  | restore (e : LSMTreeEngine) (source : Directory) (outcome : LSMTreeEngine.CopyOutcome)
  | size (e : LSMTreeEngine)
  | memoryUsage (e : LSMTreeEngine)
  | destroy (e found : LSMTreeEngine) (first second : TableWrite)
  /-- `is_open`, `cache_hit_ratio`, `current_sequence_number`, `filename`, `should_flush`,
  and the sizes that are atomics -/
  | atomicGetter

namespace StorageOperation

/-- The events that the operation makes on the mutexes; a memory table or a table that
is called by itself has a mutex of its own. -/
def events : StorageOperation → List (Event StorageMutex)
  | memtableGet m key => (m.getTraced .memtable key).events
  | memtablePut m key entry => (m.putTraced .memtable key entry).events
  | memtableRemove m key now => (m.removeTraced .memtable key now).events
  | memtableRangeScan m query => (m.rangeScanTraced .memtable query).events
  | memtableSize m => (m.sizeTraced .memtable).events
  | memtableGetAllData m => (m.getAllDataTraced .memtable).events
  | memtableClear m => (m.clearTraced .memtable).events
  | sstableWrite t dir data outcome => (t.writeTraced (.sstable 0) dir data outcome).events
  | sstableRead t uninit dir key => (t.readTraced (.sstable 0) uninit dir key).events
  | sstableRangeScan t uninit dir query => (t.rangeScanTraced (.sstable 0) uninit dir query).events
  | sstableLoadIndex t uninit dir => (t.loadIndexTraced uninit dir).events
  | walOpen w access => (w.openTraced access).events
  | walClose w => w.closeTraced.events
  | walAppend w entry => (w.appendTraced entry).events
  | walSync w => w.syncTraced.events
  | walReplayFrom w sequenceNumber now => (w.replayFromTraced sequenceNumber now).events
  | walTruncate w sequenceNumber now writable accessible =>
      (w.truncateTraced sequenceNumber now writable accessible).events
  | walFileSize w => w.fileSizeTraced.events
  | walDestroy w => w.destroyTraced.events
  | .open e uninit access decoded applied =>
      (e.openTraced uninit access decoded applied).events
  | close e found first second => (e.closeTraced found first second).events
  | get e uninit key => (e.getTraced uninit key).events
  | put e key entry => (e.putTraced key entry).events
  | putIfVersionMatch e uninit key entry expectedVersion =>
      (e.putIfVersionMatchTraced uninit key entry expectedVersion).events
  | remove e key now => (e.removeTraced key now).events
  | removeIfVersionMatch e uninit key expectedVersion now =>
      (e.removeIfVersionMatchTraced uninit key expectedVersion now).events
  | rangeScan e uninit query => (e.rangeScanTraced uninit query).events
  | multiGet e uninit clock keys => (e.multiGetTraced uninit clock keys).events
  | multiPut e entries => (e.multiPutTraced entries).events
  | flush e first second => (e.flushTraced first second).events
  | compact e merged => (e.compactTraced merged).events
  | backup e target outcome missing => (e.backupTraced target outcome missing).events
  | restore e source outcome => (e.restoreTraced source outcome).events
  | size e => e.sizeTraced.events
  | memoryUsage e => e.memoryUsageTraced.events
  | destroy e found first second => (e.destroyTraced found first second).events
  | atomicGetter => []

/-- The operation is not one that calls another public function of the same object
from its section, or does not come to that call: its object is closed. -/
def LocksOnce : StorageOperation → Prop
  | walTruncate w _ _ _ _ => w.isOpen = false
  | putIfVersionMatch e _ _ _ _ => e.isOpen = false
  | removeIfVersionMatch e _ _ _ _ => e.isOpen = false
  | _ => True

/-- **Which operations lock a mutex twice**: started by a thread with no mutex, a
public operation of an engine, a log, a table or a memory table locks no mutex that
the thread owns by then, iff it does not come to a nested call. -/
theorem disciplined_iff_locksOnce (operation : StorageOperation) :
    SharedMutex.Disciplined noStorageMutex operation.events ↔ operation.LocksOnce := by
  -- everything that is balanced, with nothing to say in `LocksOnce`
  have hbalanced : ∀ {α : Type} {t : Traced StorageMutex α}, t.Balanced noStorageMutex →
      (SharedMutex.Disciplined noStorageMutex t.events ↔ True) :=
    fun h => iff_of_true h.disciplined trivial
  cases operation with
  | memtableGet m key => exact hbalanced (Traced.balanced_section rfl _ _)
  | memtablePut m key entry => exact hbalanced (Traced.balanced_section rfl _ _)
  | memtableRemove m key now => exact hbalanced (Traced.balanced_section rfl _ _)
  | memtableRangeScan m query => exact hbalanced (Traced.balanced_section rfl _ _)
  | memtableSize m => exact hbalanced (Traced.balanced_section rfl _ _)
  | memtableGetAllData m => exact hbalanced (Traced.balanced_section rfl _ _)
  | memtableClear m => exact hbalanced (Traced.balanced_section rfl _ _)
  | sstableWrite t dir data outcome => exact hbalanced (Traced.balanced_section rfl _ _)
  | sstableRead t uninit dir key => exact hbalanced (SSTable.balanced_readTraced rfl key)
  | sstableRangeScan t uninit dir query =>
      exact hbalanced (SSTable.balanced_rangeScanTraced rfl query)
  | sstableLoadIndex t uninit dir => exact hbalanced (Traced.balanced_pure _)
  | walOpen w access => exact hbalanced (Traced.balanced_section rfl _ _)
  | walClose w => exact hbalanced (Traced.balanced_section rfl _ _)
  | walAppend w entry => exact hbalanced (Traced.balanced_section rfl _ _)
  | walSync w => exact hbalanced (Traced.balanced_section rfl _ _)
  | walReplayFrom w sequenceNumber now => exact hbalanced (Traced.balanced_section rfl _ _)
  | walTruncate w sequenceNumber now writable accessible => exact WAL.disciplined_truncateTraced_iff
  | walFileSize w => exact hbalanced (Traced.balanced_section rfl _ _)
  | walDestroy w => exact hbalanced (WAL.balanced_destroyTraced rfl w)
  | «open» e uninit access decoded applied =>
      exact hbalanced (LSMTreeEngine.balanced_openTraced access decoded applied)
  | close e found first second =>
      exact hbalanced (LSMTreeEngine.balanced_closeTraced found first second)
  | get e uninit key => exact hbalanced (LSMTreeEngine.balanced_getTraced key)
  | put e key entry => exact hbalanced (LSMTreeEngine.balanced_putTraced key entry)
  | putIfVersionMatch e uninit key entry expectedVersion =>
      exact LSMTreeEngine.disciplined_putIfVersionMatchTraced_iff
  | remove e key now => exact hbalanced (LSMTreeEngine.balanced_removeTraced key now)
  | removeIfVersionMatch e uninit key expectedVersion now =>
      exact LSMTreeEngine.disciplined_removeIfVersionMatchTraced_iff
  | rangeScan e uninit query => exact hbalanced (LSMTreeEngine.balanced_rangeScanTraced query)
  | multiGet e uninit clock keys =>
      exact hbalanced (LSMTreeEngine.balanced_multiGetTraced clock keys)
  | multiPut e entries => exact hbalanced (LSMTreeEngine.balanced_multiPutTraced entries)
  | flush e first second => exact hbalanced (LSMTreeEngine.balanced_flushTraced first second)
  | compact e merged => exact hbalanced (LSMTreeEngine.balanced_compactTraced merged)
  | backup e target outcome missing => exact hbalanced (Traced.balanced_section rfl _ _)
  | restore e source outcome => exact hbalanced (Traced.balanced_section rfl _ _)
  | size e => exact hbalanced LSMTreeEngine.balanced_sizeTraced
  | memoryUsage e => exact hbalanced (Traced.balanced_section rfl _ _)
  | destroy e found first second =>
      exact hbalanced (LSMTreeEngine.balanced_destroyTraced found first second)
  | atomicGetter => exact iff_of_true trivial trivial

/-- A version-checked put, a version-checked remove and a truncation, on a new engine
that is open. -/
theorem not_disciplined_sampleOpened :
    ¬ SharedMutex.Disciplined noStorageMutex
        (putIfVersionMatch LSMTreeEngine.sampleOpened ⟨0, 0, 0, 0, 0⟩ ⟨[97], []⟩ ⟨[1], 0, 0, false⟩
          0).events ∧
      ¬ SharedMutex.Disciplined noStorageMutex
        (removeIfVersionMatch LSMTreeEngine.sampleOpened ⟨0, 0, 0, 0, 0⟩ ⟨[97], []⟩ 1 0).events ∧
      ¬ SharedMutex.Disciplined noStorageMutex
        (walTruncate LSMTreeEngine.sampleOpened.wal 0 (fun _ => 0) true true).events := by
  decide +kernel

end StorageOperation

end QcDatabase
