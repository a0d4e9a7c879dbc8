/-
# The mutexes that the storage layer locks

`LSMTreeEngine` has a `std::shared_mutex` for its state and a `std::mutex` for its
background thread; each `MemTable` has a `std::shared_mutex`, and `WAL` and each
`SSTable` have a `std::mutex`.  The functions are written once more here, with the
events that they make on these mutexes, in the order of the source.  What reads
atomics only, or calls nothing that locks, makes no events.

A memory table goes by the place that it has in the engine, and a table by its
position in the list; a table that is being written has the next position.
`…Traced` functions return what the plain ones return.
-/
import QcDatabase.Lib.SharedMutex
import QcDatabase.Storage.LsmTree

open SharedMutex

namespace QcDatabase

/-- The mutexes of an engine and of what belongs to it. -/
inductive StorageMutex where
  | engine
  /-- `flush_mutex_` -/
  | flush
  | wal
  | memtable
  | immutableMemtable
  | sstable (position : ℕ)
  deriving DecidableEq

/-! ## Memory tables -/

namespace MemTable

/-- `MemTable::get`. -/
def getTraced (mutex : StorageMutex) (m : MemTable) (key : MultiLevelKey) :
    Traced StorageMutex (Result DataEntry) :=
  Traced.guarded mutex .shared (pure (m.get key))

/-- `MemTable::put`. -/
def putTraced (mutex : StorageMutex) (m : MemTable) (key : MultiLevelKey) (entry : DataEntry) :
    Traced StorageMutex (Result Unit × MemTable) :=
  Traced.guarded mutex .exclusive (pure (m.put key entry))

/-- `MemTable::remove`. -/
def removeTraced (mutex : StorageMutex) (m : MemTable) (key : MultiLevelKey) (now : Timestamp) :
    Traced StorageMutex (Result Unit × MemTable) :=
  Traced.guarded mutex .exclusive (pure (m.remove key now))

/-- `MemTable::range_scan`. -/
def rangeScanTraced (mutex : StorageMutex) (m : MemTable) (query : RangeQuery) :
    Traced StorageMutex (Option (Result (List (MultiLevelKey × DataEntry)))) :=
  Traced.guarded mutex .shared (pure (m.rangeScan query))

/-- `MemTable::size`. -/
def sizeTraced (mutex : StorageMutex) (m : MemTable) : Traced StorageMutex ℕ :=
  Traced.guarded mutex .shared (pure m.size)

/-- `MemTable::get_all_data`. -/
def getAllDataTraced (mutex : StorageMutex) (m : MemTable) :
    Traced StorageMutex (SortedMap MultiLevelKey DataEntry) :=
  Traced.guarded mutex .shared (pure m.getAllData)

/-- `MemTable::clear`. -/
def clearTraced (mutex : StorageMutex) (m : MemTable) : Traced StorageMutex MemTable :=
  Traced.guarded mutex .exclusive (pure m.clear)

end MemTable

/-! ## Tables -/

namespace SSTable

/-- `SSTable::write`. -/
def writeTraced (mutex : StorageMutex) (t : SSTable) (dir : Directory)
    (data : SortedMap MultiLevelKey DataEntry) (outcome : WriteOutcome) :
    Traced StorageMutex (Result Unit × SSTable × Directory) :=
  Traced.guarded mutex .exclusive (pure (t.write dir data outcome))

/-- `SSTable::load_index`: a public function that locks nothing. -/
def loadIndexTraced (t : SSTable) (uninit : Uninit) (dir : Directory) :
    Traced StorageMutex (Result Unit × SSTable) :=
  pure (t.loadIndex uninit dir)

/-- Load the index if none is in memory. -/
def ensureIndexTraced (t : SSTable) (uninit : Uninit) (dir : Directory) :
    Traced StorageMutex (Result Unit × SSTable) :=
  if t.index.isEmpty then t.loadIndexTraced uninit dir else pure (.ok (), t)

/-- `SSTable::read`. -/
def readTraced (mutex : StorageMutex) (t : SSTable) (uninit : Uninit) (dir : Directory)
    (key : MultiLevelKey) : Traced StorageMutex (Result DataEntry × SSTable) :=
  Traced.guarded mutex .exclusive (do
    let (loaded, t) ← t.ensureIndexTraced uninit dir
    match loaded with
    | .error f => return (.error f, t)
    | .ok () => return (t.lookup uninit dir key, t))

/-- `SSTable::range_scan`. -/
def rangeScanTraced (mutex : StorageMutex) (t : SSTable) (uninit : Uninit) (dir : Directory)
    (query : RangeQuery) :
    Traced StorageMutex (Option (Result (List (MultiLevelKey × DataEntry))) × SSTable) :=
  Traced.guarded mutex .exclusive (do
    let (loaded, t) ← t.ensureIndexTraced uninit dir
    match loaded with
    | .error f => return (some (.error f), t)
    | .ok () => return (t.scan uninit dir query, t))

end SSTable

/-! ## The log -/

namespace WAL

/-- `WAL::open`. -/
def openTraced (w : WAL) (access : LogAccess) : Traced StorageMutex (Result Unit × WAL) :=
  Traced.guarded .wal .exclusive (pure (w.open access))

/-- `WAL::close`. -/
def closeTraced (w : WAL) : Traced StorageMutex (Result Unit × WAL) :=
  Traced.guarded .wal .exclusive (pure w.close)

/-- `WAL::append`. -/
def appendTraced (w : WAL) (entry : WALEntry) : Traced StorageMutex (Result Unit × WAL) :=
  Traced.guarded .wal .exclusive (pure (w.append entry))

/-- `WAL::sync`. -/
def syncTraced (w : WAL) : Traced StorageMutex (Result Unit × WAL) :=
  Traced.guarded .wal .exclusive (pure w.sync)

/-- `WAL::replay_from`. -/
def replayFromTraced (w : WAL) (sequenceNumber : UInt64) (now : ℕ → Timestamp) :
    Traced StorageMutex (Result (List WALEntry) × WAL) :=
  Traced.guarded .wal .exclusive (pure (w.replayFrom sequenceNumber now))

/-- `WAL::truncate`: the log is replayed with its mutex locked. -/
def truncateTraced (w : WAL) (sequenceNumber : UInt64) (now : ℕ → Timestamp)
    (writable accessible : Bool) : Traced StorageMutex (Result Unit × WAL) :=
  Traced.guarded .wal .exclusive
    (if !w.isOpen then pure (.error ⟨.storageError, "WAL is not open"⟩, w)
    else do
      let (replayed, w) ← w.replayFromTraced sequenceNumber now
      match replayed with
      | .error f => return (.error ⟨.storageError, f.errorMessage⟩, w)
      | .ok entries => return w.rewrite entries writable accessible)

/-- `WAL::file_size`. -/
def fileSizeTraced (w : WAL) : Traced StorageMutex ℕ :=
  Traced.guarded .wal .exclusive (pure w.fileSize)

/-- `WAL::~WAL`. -/
def destroyTraced (w : WAL) : Traced StorageMutex WAL :=
  if w.isOpen then do
    let (_, w) ← w.closeTraced
    return w
  else pure w

end WAL

/-! ## The engine -/

namespace LSMTreeEngine

/-- The body of the loop of `recover_from_wal`. -/
def applyWalEntryTraced (m : MemTable) (entry : WALEntry) (now : Timestamp) :
    Traced StorageMutex MemTable :=
  if entry.type = WALEntryType.put then do
    let (_, m) ← m.putTraced .memtable entry.key entry.data
    return m
  else if entry.type = WALEntryType.delete then do
    let (_, m) ← m.removeTraced .memtable entry.key now
    return m
  else pure m

/-- The loop of `recover_from_wal`. -/
def applyWalEntriesTraced (now : ℕ → Timestamp) :
    ℕ → List WALEntry → MemTable → Traced StorageMutex MemTable
  | _, [], m => pure m
  | i, entry :: entries, m => do
      let m ← applyWalEntryTraced m entry (now i)
      applyWalEntriesTraced now (i + 1) entries m

/-- `LSMTreeEngine::recover_from_wal`. -/
def recoverFromWalTraced (e : LSMTreeEngine) (decoded applied : ℕ → Timestamp) :
    Traced StorageMutex (Result Unit × LSMTreeEngine) := do
  let (replayed, wal) ← e.wal.replayFromTraced 0 decoded
  match replayed with
  | .error f => return (.error f, { e with wal := wal })
  | .ok entries => do
      let m ← applyWalEntriesTraced applied 0 entries e.memtable
      return (.ok (), { e with wal := wal, memtable := m })

/-- `LSMTreeEngine::open`; `load_sstables` calls nothing but `load_index`. -/
def openTraced (e : LSMTreeEngine) (uninit : Uninit) (access : LogAccess)
    (decoded applied : ℕ → Timestamp) : Traced StorageMutex (Result Unit × LSMTreeEngine) :=
  Traced.guarded .engine .exclusive
    (if e.isOpen then pure (.ok (), e)
    else do
      let (opened, wal) ← e.wal.openTraced access
      match opened with
      | .error f => return (.error f, { e with wal := wal })
      | .ok () => do
          let (recovered, e) ← recoverFromWalTraced { e with wal := wal } decoded applied
          match recovered with
          | .error f => return (.error f, e)
          | .ok () => return (.ok (), { e.loadSstables uninit with isOpen := true }))

/-- `LSMTreeEngine::get_from_sstables` on the tables from a position on. -/
def getFromSstablesTraced (uninit : Uninit) (dir : Directory) (key : MultiLevelKey) :
    ℕ → List SSTable → Traced StorageMutex (Result DataEntry × List SSTable)
  | _, [] => pure (.error ⟨.notFound, "Key not found in SSTables"⟩, [])
  | position, t :: newer => do
      let (found, newer) ← getFromSstablesTraced uninit dir key (position + 1) newer
      match found with
      | .ok entry => return (.ok entry, t :: newer)
      | .error f => do
          -- also where a newer table holds a deletion mark
          let (found, t) ← t.readTraced (.sstable position) uninit dir key
          match found with
          | .ok entry => return (.ok entry, t :: newer)
          | .error _ => return (.error f, t :: newer)

/-- What `get` asks after the memory tables. -/
def getStoredTraced (e : LSMTreeEngine) (uninit : Uninit) (key : MultiLevelKey) :
    Traced StorageMutex (Result DataEntry × LSMTreeEngine) := do
  let (found, ts) ← getFromSstablesTraced uninit e.dir key 0 e.sstables
  match found with
  | .ok entry => return (.ok entry, { e with sstables := ts })
  | .error _ => return (.error ⟨.notFound, "Key not found"⟩, { e with sstables := ts })

/-- `LSMTreeEngine::get`. -/
def getTraced (e : LSMTreeEngine) (uninit : Uninit) (key : MultiLevelKey) :
    Traced StorageMutex (Result DataEntry × LSMTreeEngine) :=
  Traced.guarded .engine .shared
    (if !e.isOpen then pure (.error ⟨.storageError, "LSM tree is not open"⟩, e)
    else do
      let found ← e.memtable.getTraced .memtable key
      match found with
      | .ok entry => return (.ok entry, e)
      | .error _ =>
          match e.immutableMemtable with
          | none => e.getStoredTraced uninit key
          | some m => do
              let found ← m.getTraced .immutableMemtable key
              match found with
              | .ok entry => return (.ok entry, e)
              | .error _ => e.getStoredTraced uninit key)

/-- `LSMTreeEngine::put`. -/
def putTraced (e : LSMTreeEngine) (key : MultiLevelKey) (entry : DataEntry) :
    Traced StorageMutex (Result Unit × LSMTreeEngine) :=
  Traced.guarded .engine .exclusive
    (if !e.isOpen then pure (.error ⟨.storageError, "LSM tree is not open"⟩, e)
    else do
      let (logged, wal) ← e.wal.appendTraced ⟨WALEntryType.put, key, entry, 0⟩
      match logged with
      | .error f => return (.error f, { e with wal := wal })
      | .ok () => do
          let (r, m) ← e.memtable.putTraced .memtable key entry
          return (r, { e with wal := wal, memtable := m }))

/-- `LSMTreeEngine::remove`. -/
def removeTraced (e : LSMTreeEngine) (key : MultiLevelKey) (now : Timestamp) :
    Traced StorageMutex (Result Unit × LSMTreeEngine) :=
  Traced.guarded .engine .exclusive
    (if !e.isOpen then pure (.error ⟨.storageError, "LSM tree is not open"⟩, e)
    else do
      let deleteEntry := { DataEntry.default now with deleted := true, timestamp := now }
      let (logged, wal) ← e.wal.appendTraced ⟨WALEntryType.delete, key, deleteEntry, 0⟩
      match logged with
      | .error f => return (.error f, { e with wal := wal })
      | .ok () => do
          let (r, m) ← e.memtable.removeTraced .memtable key now
          return (r, { e with wal := wal, memtable := m }))

/-- `LSMTreeEngine::put_if_version_match`: `get` and `put` are called with the mutex
locked. -/
def putIfVersionMatchTraced (e : LSMTreeEngine) (uninit : Uninit) (key : MultiLevelKey)
    (entry : DataEntry) (expectedVersion : Version) :
    Traced StorageMutex (Result Unit × LSMTreeEngine) :=
  Traced.guarded .engine .exclusive
    (if !e.isOpen then pure (.error ⟨.storageError, "LSM tree is not open"⟩, e)
    else do
      let newEntry := { entry with version := expectedVersion + 1 }
      -- a shared lock of the mutex that is locked exclusively
      let (current, e) ← e.getTraced uninit key
      match current with
      | .ok current =>
          if current.version ≠ expectedVersion then
            pure (.error ⟨.versionConflict, "Version mismatch"⟩, e)
          else e.putTraced key newEntry
      | .error _ =>
          if expectedVersion ≠ 0 then
            pure (.error ⟨.versionConflict, "Key does not exist but expected version is not 0"⟩, e)
          else e.putTraced key newEntry)

/-- `LSMTreeEngine::remove_if_version_match`. -/
def removeIfVersionMatchTraced (e : LSMTreeEngine) (uninit : Uninit) (key : MultiLevelKey)
    (expectedVersion : Version) (now : Timestamp) :
    Traced StorageMutex (Result Unit × LSMTreeEngine) :=
  Traced.guarded .engine .exclusive
    (if !e.isOpen then pure (.error ⟨.storageError, "LSM tree is not open"⟩, e)
    else do
      let (current, e) ← e.getTraced uninit key
      match current with
      | .error _ => return (.error ⟨.notFound, "Key not found"⟩, e)
      | .ok current =>
          if current.version ≠ expectedVersion then
            pure (.error ⟨.versionConflict, "Version mismatch"⟩, e)
          else e.removeTraced key now)

/-- The loop of `multi_get`, which locks nothing itself. -/
def multiGetFromTraced (e : LSMTreeEngine) (uninit : Uninit) (clock : ℕ → Timestamp) :
    ℕ → List MultiLevelKey → Traced StorageMutex (List DataEntry × LSMTreeEngine)
  | _, [] => pure ([], e)
  | i, key :: keys => do
      let (result, e) ← e.getTraced uninit key
      let (entries, e) ← e.multiGetFromTraced uninit clock (i + 1) keys
      match result with
      | .ok entry => return (entry :: entries, e)
      | .error _ => return (DataEntry.default (clock i) :: entries, e)

/-- `LSMTreeEngine::multi_get`. -/
def multiGetTraced (e : LSMTreeEngine) (uninit : Uninit) (clock : ℕ → Timestamp)
    (keys : List MultiLevelKey) : Traced StorageMutex (Result (List DataEntry) × LSMTreeEngine) := do
  let (entries, e) ← e.multiGetFromTraced uninit clock 0 keys
  return (.ok entries, e)

/-- `LSMTreeEngine::multi_put`. -/
def multiPutTraced (e : LSMTreeEngine) : List (MultiLevelKey × DataEntry) →
    Traced StorageMutex (Result Unit × LSMTreeEngine)
  | [] => pure (.ok (), e)
  | (key, entry) :: entries => do
      let (result, e) ← e.putTraced key entry
      match result with
      | .error f => return (.error f, e)
      | .ok () => e.multiPutTraced entries

/-- The loop of `range_scan` over the tables from a position on. -/
def scanSstablesTraced (uninit : Uninit) (dir : Directory) (query : RangeQuery) :
    ℕ → List SSTable → SortedMap MultiLevelKey DataEntry →
      Traced StorageMutex (Option (SortedMap MultiLevelKey DataEntry) × List SSTable)
  | _, [], merged => pure (some merged, [])
  | position, t :: newer, merged => do
      let (merged, newer) ← scanSstablesTraced uninit dir query (position + 1) newer merged
      match merged with
      | none => return (none, t :: newer)
      | some merged => do
          let (scan, t) ← t.rangeScanTraced (.sstable position) uninit dir query
          return (scan.map (mergeScan merged), t :: newer)

/-- What `range_scan` does after the memory tables. -/
def scanStoredTraced (e : LSMTreeEngine) (uninit : Uninit) (query : RangeQuery)
    (merged : SortedMap MultiLevelKey DataEntry) :
    Traced StorageMutex (Option (Result (List (MultiLevelKey × DataEntry))) × LSMTreeEngine) := do
  let (merged, ts) ← scanSstablesTraced uninit e.dir query 0 e.sstables merged
  return (merged.map fun merged =>
    .ok ((merged.entries.filter fun entry => !entry.2.deleted).take query.limit.toNat),
    { e with sstables := ts })

/-- `LSMTreeEngine::range_scan`. -/
def rangeScanTraced (e : LSMTreeEngine) (uninit : Uninit) (query : RangeQuery) :
    Traced StorageMutex (Option (Result (List (MultiLevelKey × DataEntry))) × LSMTreeEngine) :=
  Traced.guarded .engine .shared
    (if !e.isOpen then pure (some (.error ⟨.storageError, "LSM tree is not open"⟩), e)
    else do
      let memtableResult ← e.memtable.rangeScanTraced .memtable query
      match memtableResult with
      | none => return (none, e)
      | some memtableResult =>
          let merged :=
            match memtableResult with
            | .ok entries => insertAll SortedMap.empty entries
            | .error _ => SortedMap.empty
          match e.immutableMemtable with
          | none => e.scanStoredTraced uninit query merged
          | some m => do
              let immutableResult ← m.rangeScanTraced .immutableMemtable query
              match immutableResult with
              | none => return (none, e)
              | some scan => e.scanStoredTraced uninit query (mergeScan merged scan))

/-- `LSMTreeEngine::size`; the sizes of the tables are atomics. -/
def sizeTraced (e : LSMTreeEngine) : Traced StorageMutex ℕ :=
  Traced.guarded .engine .shared (do
    let current ← e.memtable.sizeTraced .memtable
    let immutableSize ← e.immutableMemtable.elim (pure 0) (MemTable.sizeTraced .immutableMemtable)
    return current + (immutableSize + (e.sstables.map SSTable.size).sum))

/-- `LSMTreeEngine::memory_usage`; those of the memory tables are atomics. -/
def memoryUsageTraced (e : LSMTreeEngine) : Traced StorageMutex UInt64 :=
  Traced.guarded .engine .shared (pure e.memoryUsage)

/-- The second half of `flush_memtable`: the memory table is immutable by the time
that its entries are copied. -/
def flushCurrentTraced (e : LSMTreeEngine) (w : TableWrite) :
    Traced StorageMutex (Result Unit × LSMTreeEngine) := do
  let data ← e.memtable.getAllDataTraced .immutableMemtable
  let (written, t, dir) ← (SSTable.create (e.filenameOf w)).writeTraced
    (.sstable e.sstables.length) e.dir data w.outcome
  match written with
  | .error f =>
      -- the entries stay in memory, as the immutable table
      return (.error f, { e with
        dir := dir, immutableMemtable := some e.memtable, memtable := MemTable.empty })
  | .ok () => do
      let checkpoint : WALEntry := ⟨WALEntryType.checkpoint, ⟨[], []⟩, ⟨[], 0, 0, false⟩, 0⟩
      let (_, wal) ← e.wal.appendTraced checkpoint
      return (.ok (), { e with
        dir := dir
        immutableMemtable := none
        memtable := MemTable.empty
        sstables := e.sstables ++ [t]
        wal := wal })

/-- `LSMTreeEngine::flush_memtable`. -/
def flushMemtableTraced (e : LSMTreeEngine) (first second : TableWrite) :
    Traced StorageMutex (Result Unit × LSMTreeEngine) := do
  let size ← e.memtable.sizeTraced .memtable
  if size = 0 then pure (.ok (), e)
  else
    match e.immutableMemtable with
    | none => e.flushCurrentTraced second
    | some m => do
        let data ← m.getAllDataTraced .immutableMemtable
        let (written, t, dir) ← (SSTable.create (e.filenameOf first)).writeTraced
          (.sstable e.sstables.length) e.dir data first.outcome
        match written with
        | .error f => return (.error f, { e with dir := dir })
        | .ok () =>
            flushCurrentTraced { e with dir := dir, sstables := e.sstables ++ [t] } second

/-- `LSMTreeEngine::flush`. -/
def flushTraced (e : LSMTreeEngine) (first second : TableWrite) :
    Traced StorageMutex (Result Unit × LSMTreeEngine) :=
  Traced.guarded .engine .exclusive
    (if !e.isOpen then pure (.error ⟨.storageError, "LSM tree is not open"⟩, e)
    else do
      let (flushed, e) ← e.flushMemtableTraced first second
      match flushed with
      | .error f => return (.error f, e)
      | .ok () => do
          let (r, wal) ← e.wal.syncTraced
          return (r, { e with wal := wal }))

/-- `LSMTreeEngine::compact_sstables`. -/
def compactSstablesTraced (e : LSMTreeEngine) (w : TableWrite) :
    Traced StorageMutex (Result Unit × LSMTreeEngine) :=
  match e.sstables with
  | sstable1 :: sstable2 :: sstables => do
      let mergedData : SortedMap MultiLevelKey DataEntry := SortedMap.empty
      let (written, t, dir) ← (SSTable.create (e.filenameOf w)).writeTraced
        (.sstable e.sstables.length) e.dir mergedData w.outcome
      match written with
      | .error f => return (.error f, { e with sstables := sstables, dir := dir })
      | .ok () =>
          return (.ok (), { e with
            sstables := t :: sstables
            dir := (dir.erase sstable1.filename).erase sstable2.filename })
  | _ => pure (.ok (), e)

/-- `LSMTreeEngine::compact`. -/
def compactTraced (e : LSMTreeEngine) (w : TableWrite) :
    Traced StorageMutex (Result Unit × LSMTreeEngine) :=
  Traced.guarded .engine .exclusive
    (if !e.isOpen then pure (.error ⟨.storageError, "LSM tree is not open"⟩, e)
    else e.compactSstablesTraced w)

/-- `LSMTreeEngine::backup`: names of tables are read without their mutexes. -/
def backupTraced (e : LSMTreeEngine) (target : Directory) (outcome : CopyOutcome)
    (missing : String) : Traced StorageMutex (Result Unit × Directory) :=
  Traced.guarded .engine .shared (pure (e.backup target outcome missing))

/-- `LSMTreeEngine::restore`. -/
def restoreTraced (e : LSMTreeEngine) (source : Directory) (outcome : CopyOutcome) :
    Traced StorageMutex (Result Unit × LSMTreeEngine) :=
  Traced.guarded .engine .exclusive (pure (e.restore source outcome))

/-- The rest of `close`, after the background thread has ended. -/
def finishCloseTraced (e : LSMTreeEngine) (first second : TableWrite) :
    Traced StorageMutex (Result Unit × LSMTreeEngine) := do
  let size ← e.memtable.sizeTraced .memtable
  let (_, e) ← (if size ≠ 0 then e.flushMemtableTraced first second else pure (.ok (), e))
  let (_, wal) ← e.wal.closeTraced
  return (.ok (), { e with wal := wal, isOpen := false })

/-- `LSMTreeEngine::close`: the mutex is unlocked while the call waits for the
background thread, and `found` is the engine that it finds then. -/
def closeTraced (e found : LSMTreeEngine) (first second : TableWrite) :
    Traced StorageMutex (Result Unit × LSMTreeEngine) :=
  Traced.guarded .engine .exclusive
    (if !e.isOpen then pure (.ok (), e)
    else do
      -- `join` on the background thread
      Traced.unlock .engine
      Traced.lock .engine .exclusive
      found.finishCloseTraced first second)

/-- `LSMTreeEngine::~LSMTreeEngine`, which destroys the log at its end. -/
def destroyTraced (e found : LSMTreeEngine) (first second : TableWrite) :
    Traced StorageMutex Unit := do
  let (_, e) ← (if e.isOpen then e.closeTraced found first second else pure (.ok (), e))
  let _ ← e.wal.destroyTraced
  return ()

/-- The wait on `flush_cv_`: each wake-up locks `flush_mutex_` again. -/
def waitTraced : ℕ → Traced StorageMutex Unit
  | 0 => pure ()
  | n + 1 => do
      Traced.unlock .flush
      Traced.lock .flush .exclusive
      waitTraced n

/-- One round of `LSMTreeEngine::background_work`; no round follows where `stopped`. -/
def backgroundWorkTraced (e : LSMTreeEngine) (wakeUps : ℕ) (stopped : Bool)
    (first second merged : TableWrite) : Traced StorageMutex LSMTreeEngine := do
  Traced.guarded .flush .exclusive (waitTraced wakeUps)
  if stopped then pure e
  else
    Traced.guarded .engine .exclusive (do
      let (_, e) ←
        (if e.memtable.shouldFlush then e.flushMemtableTraced first second else pure (.ok (), e))
      let (_, e) ← (if e.needCompaction then e.compactSstablesTraced merged else pure (.ok (), e))
      return e)

end LSMTreeEngine

/-! ## The traced functions return what the plain ones return -/

namespace SSTable

variable {t : SSTable} {uninit : Uninit} {dir : Directory} {mutex : StorageMutex}

theorem result_ensureIndexTraced :
    (t.ensureIndexTraced uninit dir).result = some (t.ensureIndex uninit dir) := by
  rw [ensureIndexTraced, ensureIndex]
  split_ifs <;> rfl

theorem result_readTraced (key : MultiLevelKey) :
    (t.readTraced mutex uninit dir key).result = some (t.read uninit dir key) := by
  rw [readTraced, read, Traced.result_guarded, Traced.result_bind, result_ensureIndexTraced,
    Option.bind_some]
  rcases t.ensureIndex uninit dir with ⟨f | _, t'⟩ <;> rfl

theorem result_rangeScanTraced (query : RangeQuery) :
    (t.rangeScanTraced mutex uninit dir query).result = some (t.rangeScan uninit dir query) := by
  rw [rangeScanTraced, rangeScan, Traced.result_guarded, Traced.result_bind,
    result_ensureIndexTraced, Option.bind_some]
  rcases t.ensureIndex uninit dir with ⟨f | _, t'⟩ <;> rfl

end SSTable

theorem WAL.result_truncateTraced (w : WAL) (sequenceNumber : UInt64) (now : ℕ → Timestamp)
    (writable accessible : Bool) :
    (w.truncateTraced sequenceNumber now writable accessible).result
      = some (w.truncate sequenceNumber now writable accessible) := by
  rw [truncateTraced, truncate, Traced.result_guarded]
  split_ifs
  · rfl
  · rw [Traced.result_bind, replayFromTraced, Traced.result_section, Option.bind_some]
    rcases w.replayFrom sequenceNumber now with ⟨f | entries, w'⟩ <;> rfl

namespace LSMTreeEngine

variable {e : LSMTreeEngine} {uninit : Uninit} {dir : Directory}

theorem result_applyWalEntryTraced (m : MemTable) (entry : WALEntry) (now : Timestamp) :
    (applyWalEntryTraced m entry now).result = some (applyWalEntry m entry now) := by
  rw [applyWalEntryTraced, applyWalEntry]
  split_ifs <;> rfl

theorem result_applyWalEntriesTraced (now : ℕ → Timestamp) (i : ℕ) (entries : List WALEntry)
    (m : MemTable) :
    (applyWalEntriesTraced now i entries m).result = some (applyWalEntries now i entries m) := by
  induction entries generalizing i m with
  | nil => rfl
  | cons entry entries ih =>
      rw [applyWalEntriesTraced, applyWalEntries, Traced.result_bind, result_applyWalEntryTraced,
        Option.bind_some]
      exact ih (i + 1) _

theorem result_recoverFromWalTraced (decoded applied : ℕ → Timestamp) :
    (e.recoverFromWalTraced decoded applied).result = some (e.recoverFromWal decoded applied) := by
  rw [recoverFromWalTraced, recoverFromWal, Traced.result_bind, WAL.replayFromTraced,
    Traced.result_section, Option.bind_some]
  rcases e.wal.replayFrom 0 decoded with ⟨f | entries, wal⟩
  · rfl
  · dsimp only
    rw [Traced.result_bind, result_applyWalEntriesTraced, Option.bind_some]
    rfl

theorem result_openTraced (access : LogAccess) (decoded applied : ℕ → Timestamp) :
    (e.openTraced uninit access decoded applied).result
      = some (e.open uninit access decoded applied) := by
  rw [openTraced, LSMTreeEngine.open, Traced.result_guarded]
  split_ifs
  · rfl
  · rw [Traced.result_bind, WAL.openTraced, Traced.result_section, Option.bind_some]
    rcases e.wal.open access with ⟨f | _, wal⟩
    · rfl
    · dsimp only
      rw [Traced.result_bind, result_recoverFromWalTraced, Option.bind_some]
      rcases recoverFromWal { e with wal := wal } decoded applied with ⟨f | _, e'⟩ <;> rfl

theorem result_getFromSstablesTraced (key : MultiLevelKey) (position : ℕ) (ts : List SSTable) :
    (getFromSstablesTraced uninit dir key position ts).result
      = some (getFromSstables uninit dir key ts) := by
  induction ts generalizing position with
  | nil => rfl
  | cons t newer ih =>
      rw [getFromSstablesTraced, getFromSstables, Traced.result_bind, ih, Option.bind_some]
      rcases getFromSstables uninit dir key newer with ⟨f | entry, newer'⟩
      · dsimp only
        rw [Traced.result_bind, SSTable.result_readTraced, Option.bind_some]
        rcases t.read uninit dir key with ⟨f' | entry, t'⟩ <;> rfl
      · rfl

theorem result_getStoredTraced (key : MultiLevelKey) :
    (e.getStoredTraced uninit key).result =
      some (match getFromSstables uninit e.dir key e.sstables with
        | (.ok entry, ts) => (.ok entry, { e with sstables := ts })
        | (.error _, ts) => (.error ⟨.notFound, "Key not found"⟩, { e with sstables := ts })) := by
  rw [getStoredTraced, Traced.result_bind, result_getFromSstablesTraced, Option.bind_some]
  rcases getFromSstables uninit e.dir key e.sstables with ⟨f | entry, ts⟩ <;> rfl

theorem result_getTraced (key : MultiLevelKey) :
    (e.getTraced uninit key).result = some (e.get uninit key) := by
  rw [getTraced, get, Traced.result_guarded]
  split_ifs
  · rfl
  · rw [Traced.result_bind, MemTable.getTraced, Traced.result_section, Option.bind_some]
    rcases e.memtable.get key with f | entry
    · obtain ⟨dataDir, dir, memtable, _ | m, ts, wal, isOpen, maxSstables⟩ := e
      · exact result_getStoredTraced key
      · dsimp only
        rw [Traced.result_bind, MemTable.getTraced, Traced.result_section, Option.bind_some,
          Option.map_some]
        rcases m.get key with f' | entry
        · exact result_getStoredTraced key
        · rfl
    · rfl

theorem result_putTraced (key : MultiLevelKey) (entry : DataEntry) :
    (e.putTraced key entry).result = some (e.put key entry) := by
  rw [putTraced, put, Traced.result_guarded]
  split_ifs
  · rfl
  · rw [Traced.result_bind, WAL.appendTraced, Traced.result_section, Option.bind_some]
    rcases e.wal.append ⟨WALEntryType.put, key, entry, 0⟩ with ⟨f | _, wal⟩ <;> rfl

theorem result_removeTraced (key : MultiLevelKey) (now : Timestamp) :
    (e.removeTraced key now).result = some (e.remove key now) := by
  rw [removeTraced, remove, Traced.result_guarded]
  split_ifs
  · rfl
  · dsimp only
    rw [Traced.result_bind, WAL.appendTraced, Traced.result_section, Option.bind_some]
    rcases e.wal.append _ with ⟨f | _, wal⟩ <;> rfl

theorem result_putIfVersionMatchTraced (key : MultiLevelKey) (entry : DataEntry)
    (expectedVersion : Version) :
    (e.putIfVersionMatchTraced uninit key entry expectedVersion).result
      = some (e.putIfVersionMatch uninit key entry expectedVersion) := by
  rw [putIfVersionMatchTraced, putIfVersionMatch, Traced.result_guarded]
  by_cases hclosed : (!e.isOpen) = true
  · rw [if_pos hclosed, if_pos hclosed]
    rfl
  · rw [if_neg hclosed, if_neg hclosed]
    dsimp only
    rw [Traced.result_bind, result_getTraced, Option.bind_some]
    rcases e.get uninit key with ⟨f | current, e'⟩
    · dsimp only
      split_ifs
      · rfl
      · exact result_putTraced key _
    · dsimp only
      split_ifs
      · rfl
      · exact result_putTraced key _

theorem result_removeIfVersionMatchTraced (key : MultiLevelKey) (expectedVersion : Version)
    (now : Timestamp) :
    (e.removeIfVersionMatchTraced uninit key expectedVersion now).result
      = some (e.removeIfVersionMatch uninit key expectedVersion now) := by
  rw [removeIfVersionMatchTraced, removeIfVersionMatch, Traced.result_guarded]
  split_ifs
  · rfl
  · rw [Traced.result_bind, result_getTraced, Option.bind_some]
    rcases e.get uninit key with ⟨f | current, e'⟩
    · rfl
    · dsimp only
      split_ifs
      · rfl
      · exact result_removeTraced key now

theorem result_multiGetFromTraced (clock : ℕ → Timestamp) (i : ℕ) (keys : List MultiLevelKey) :
    (e.multiGetFromTraced uninit clock i keys).result
      = some (e.multiGetFrom uninit clock i keys) := by
  induction keys generalizing e i with
  | nil => rfl
  | cons key keys ih =>
      rw [multiGetFromTraced, multiGetFrom, Traced.result_bind, result_getTraced, Option.bind_some]
      dsimp only
      rw [Traced.result_bind, ih, Option.bind_some]
      rcases (e.get uninit key).1 with f | entry <;> rfl

theorem result_multiGetTraced (clock : ℕ → Timestamp) (keys : List MultiLevelKey) :
    (e.multiGetTraced uninit clock keys).result = some (e.multiGet uninit clock keys) := by
  rw [multiGetTraced, multiGet, Traced.result_bind, result_multiGetFromTraced, Option.bind_some]
  rfl

theorem result_multiPutTraced (entries : List (MultiLevelKey × DataEntry)) :
    (e.multiPutTraced entries).result = some (e.multiPut entries) := by
  induction entries generalizing e with
  | nil => rfl
  | cons entry entries ih =>
      rw [multiPutTraced, multiPut, Traced.result_bind, result_putTraced, Option.bind_some]
      rcases e.put entry.1 entry.2 with ⟨f | _, e'⟩
      · rfl
      · exact ih

theorem result_scanSstablesTraced (query : RangeQuery) (position : ℕ) (ts : List SSTable)
    (merged : SortedMap MultiLevelKey DataEntry) :
    (scanSstablesTraced uninit dir query position ts merged).result
      = some (scanSstables uninit dir query ts merged) := by
  induction ts generalizing position with
  | nil => rfl
  | cons t newer ih =>
      rw [scanSstablesTraced, scanSstables, Traced.result_bind, ih, Option.bind_some]
      rcases scanSstables uninit dir query newer merged with ⟨_ | merged', newer'⟩
      · rfl
      · dsimp only
        rw [Traced.result_bind, SSTable.result_rangeScanTraced, Option.bind_some]
        rfl

theorem result_scanStoredTraced (query : RangeQuery)
    (merged : SortedMap MultiLevelKey DataEntry) :
    (e.scanStoredTraced uninit query merged).result =
      some (let (merged, ts) := scanSstables uninit e.dir query e.sstables merged
        (merged.map fun merged =>
          .ok ((merged.entries.filter fun entry => !entry.2.deleted).take query.limit.toNat),
          { e with sstables := ts })) := by
  rw [scanStoredTraced, Traced.result_bind, result_scanSstablesTraced, Option.bind_some]
  rfl

theorem result_rangeScanTraced (query : RangeQuery) :
    (e.rangeScanTraced uninit query).result = some (e.rangeScan uninit query) := by
  rw [rangeScanTraced, rangeScan, Traced.result_guarded]
  split_ifs
  · rfl
  · rw [Traced.result_bind, MemTable.rangeScanTraced, Traced.result_section, Option.bind_some]
    rcases e.memtable.rangeScan query with _ | memtableResult
    · rfl
    · obtain ⟨dataDir, dir, memtable, _ | m, ts, wal, isOpen, maxSstables⟩ := e
      · exact result_scanStoredTraced query _
      · dsimp only
        rw [Traced.result_bind, MemTable.rangeScanTraced, Traced.result_section, Option.bind_some]
        rcases m.rangeScan query with _ | scan
        · rfl
        · exact result_scanStoredTraced query _

theorem result_sizeTraced : e.sizeTraced.result = some e.size := by
  rw [sizeTraced, size, Traced.result_guarded, Traced.result_bind, MemTable.sizeTraced,
    Traced.result_section, Option.bind_some, Traced.result_bind]
  rcases e.immutableMemtable with _ | m <;> rfl

theorem result_flushCurrentTraced (w : TableWrite) :
    (e.flushCurrentTraced w).result = some (e.flushCurrent w) := by
  rw [flushCurrentTraced, flushCurrent, Traced.result_bind, MemTable.getAllDataTraced,
    Traced.result_section, Option.bind_some, Traced.result_bind, SSTable.writeTraced,
    Traced.result_section, Option.bind_some]
  rcases (SSTable.create (e.filenameOf w)).write e.dir e.memtable.getAllData w.outcome with
    ⟨f | _, t, dir'⟩ <;> rfl

theorem result_flushMemtableTraced (first second : TableWrite) :
    (e.flushMemtableTraced first second).result = some (e.flushMemtable first second) := by
  rw [flushMemtableTraced, flushMemtable, Traced.result_bind, MemTable.sizeTraced,
    Traced.result_section, Option.bind_some]
  split_ifs
  · rfl
  · rcases e.immutableMemtable with _ | m
    · exact result_flushCurrentTraced second
    · dsimp only
      rw [Traced.result_bind, MemTable.getAllDataTraced, Traced.result_section, Option.bind_some,
        Traced.result_bind, SSTable.writeTraced, Traced.result_section, Option.bind_some]
      rcases (SSTable.create (e.filenameOf first)).write e.dir m.getAllData first.outcome with
        ⟨f | _, t, dir'⟩
      · rfl
      · exact result_flushCurrentTraced second

theorem result_flushTraced (first second : TableWrite) :
    (e.flushTraced first second).result = some (e.flush first second) := by
  rw [flushTraced, flush, Traced.result_guarded]
  split_ifs
  · rfl
  · rw [Traced.result_bind, result_flushMemtableTraced, Option.bind_some]
    rcases e.flushMemtable first second with ⟨f | _, e'⟩ <;> rfl

theorem result_compactSstablesTraced (w : TableWrite) :
    (e.compactSstablesTraced w).result = some (e.compactSstables w) := by
  rw [compactSstablesTraced, compactSstables]
  rcases e.sstables with _ | ⟨sstable1, _ | ⟨sstable2, sstables⟩⟩
  · rfl
  · rfl
  · dsimp only
    rw [Traced.result_bind, SSTable.writeTraced, Traced.result_section, Option.bind_some]
    rcases (SSTable.create (e.filenameOf w)).write e.dir SortedMap.empty w.outcome with
      ⟨f | _, t, dir'⟩ <;> rfl

theorem result_compactTraced (w : TableWrite) :
    (e.compactTraced w).result = some (e.compact w) := by
  rw [compactTraced, compact, Traced.result_guarded]
  split_ifs
  · rfl
  · exact result_compactSstablesTraced w

/-- A call of `close` that finds the engine as it left it. -/
theorem result_closeTraced (first second : TableWrite) :
    (e.closeTraced e first second).result = some (e.close first second) := by
  rw [closeTraced, close, Traced.result_guarded]
  split_ifs with hclosed hsize
  · rfl
  all_goals
    show (e.finishCloseTraced first second).result = _
    rw [finishCloseTraced, Traced.result_bind, MemTable.sizeTraced, Traced.result_section,
      Option.bind_some, Traced.result_bind]
  · rw [if_pos hsize, result_flushMemtableTraced]
    rfl
  · rw [if_neg hsize]
    rfl

/-- A round of the background thread that is not stopped. -/
theorem result_backgroundWorkTraced (wakeUps : ℕ) (first second merged : TableWrite) :
    (e.backgroundWorkTraced wakeUps false first second merged).result
      = some (e.backgroundWork first second merged) := by
  have hwait : ∀ n, (waitTraced n).result = some () := by
    intro n
    induction n with
    | zero => rfl
    | succ n ih => exact ih
  have hcompact : ∀ e' : LSMTreeEngine,
      (do
        let (_, e) ← (if e'.needCompaction then e'.compactSstablesTraced merged
          else pure (.ok (), e'))
        return e : Traced StorageMutex LSMTreeEngine).result
        = some (if e'.needCompaction then (e'.compactSstables merged).2 else e') := by
    intro e'
    rw [Traced.result_bind]
    split_ifs
    · rw [result_compactSstablesTraced]
      rfl
    · rfl
  rw [backgroundWorkTraced, backgroundWork, Traced.result_bind, Traced.result_guarded, hwait,
    Option.bind_some, if_neg Bool.false_ne_true, Traced.result_guarded, Traced.result_bind]
  by_cases hflush : e.memtable.shouldFlush = true
  · rw [if_pos hflush, if_pos hflush, result_flushMemtableTraced, Option.bind_some]
    exact hcompact _
  · rw [if_neg hflush, if_neg hflush, Traced.result_pure, Option.bind_some]
    exact hcompact e

end LSMTreeEngine

end QcDatabase
