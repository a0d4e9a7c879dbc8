/-
# The storage engine (`src/storage/lsm_tree.cpp`)

`LSMTreeEngine` keeps entries on several levels: the memory table, at most one
immutable memory table, and a list of tables on disk, oldest first.  A read asks
them from the newest to the oldest.

The state carries the files under the data directory (`dir`); the log file is
part of the `WAL` object.  What the environment decides is an argument of the
call it decides: clock readings, the local time `generate_sstable_filename`
makes a file name of together with the fate of the write under that name
(`TableWrite`), whether the log file may be opened, and the fate of the copies of
a backup (`CopyOutcome`).  Each operation runs under the mutex of the engine, so
the operations are functions on the whole state; hit counters are left out.

`get` and `rangeScan` return the state as well: a table whose index is empty
loads it when it is first read.
-/
import Mathlib.Algebra.Ring.Nat
import QcDatabase.Storage.SSTable
import QcDatabase.Storage.Wal

namespace QcDatabase

/-! ## File names -/

/-- A clock reading as local time. -/
structure LocalTime where
  year : ℕ
  month : ℕ
  day : ℕ
  hour : ℕ
  minute : ℕ
  second : ℕ
  millisecond : ℕ
  deriving DecidableEq, Repr

/-- The last `width` decimal digits of a number. -/
def decimal : ℕ → ℕ → List Char
  | 0, _ => []
  | width + 1, n => decimal width (n / 10) ++ [Nat.digitChar (n % 10)]

/-- `%Y%m%d_%H%M%S`, an underscore and the milliseconds. -/
def LocalTime.stamp (t : LocalTime) : List Char :=
  decimal 4 t.year ++ decimal 2 t.month ++ decimal 2 t.day ++ ['_']
    ++ decimal 2 t.hour ++ decimal 2 t.minute ++ decimal 2 t.second ++ ['_']
    ++ decimal 3 t.millisecond

/-- `LSMTreeEngine::generate_sstable_filename` at local time `now`. -/
def generateSstableFilename (dataDir : String) (now : LocalTime) : String :=
  dataDir ++ "/sstable_" ++ String.ofList (now.stamp ++ ".sst".toList)

/-- `path(name).extension() == ".sst"`: a file name that is nothing but `".sst"`
has no extension. -/
def hasSstExtension (name : String) : Bool :=
  match name.toList.reverse with
  | 't' :: 's' :: 's' :: '.' :: c :: _ => c ≠ '/'
  | _ => false

/-- The local time at which a file name is generated and the fate of the write
under that name. -/
structure TableWrite where
  now : LocalTime
  outcome : WriteOutcome
  deriving DecidableEq, Repr

/-! ## The engine -/

/-- `LSMTreeEngine`. -/
structure LSMTreeEngine where
  dataDir : String
  dir : Directory
  memtable : MemTable
  immutableMemtable : Option MemTable
  /-- oldest first -/
  sstables : List SSTable
  wal : WAL
  isOpen : Bool
  maxSstables : ℕ
  deriving DecidableEq

namespace LSMTreeEngine

/-- `LSMTreeEngine::LSMTreeEngine` on a data directory with these files and this
log file. -/
def create (dataDir : String) (dir : Directory) (log : Option Bytes) (maxSstables : ℕ) :
    LSMTreeEngine :=
  { dataDir := dataDir
    dir := dir
    memtable := MemTable.empty
    immutableMemtable := none
    sstables := []
    wal := WAL.create (dataDir ++ "/wal.log") log
    isOpen := false
    maxSstables := maxSstables }

/-- The file name of a write. -/
def filenameOf (e : LSMTreeEngine) (w : TableWrite) : String :=
  generateSstableFilename e.dataDir w.now

/-! ## Opening -/

/-- The body of the loop of `recover_from_wal`, at clock reading `now`. -/
def applyWalEntry (m : MemTable) (entry : WALEntry) (now : Timestamp) : MemTable :=
  if entry.type = WALEntryType.put then (m.put entry.key entry.data).2
  else if entry.type = WALEntryType.delete then (m.remove entry.key now).2
  else m

/-- The loop of `recover_from_wal` over the entries from the `i`-th on. -/
def applyWalEntries (now : ℕ → Timestamp) : ℕ → List WALEntry → MemTable → MemTable
  | _, [], m => m
  | i, entry :: entries, m => applyWalEntries now (i + 1) entries (applyWalEntry m entry (now i))

/-- `LSMTreeEngine::recover_from_wal`: `decoded i` is the clock reading when the
`i`-th entry is decoded, `applied i` when it is applied. -/
def recoverFromWal (e : LSMTreeEngine) (decoded applied : ℕ → Timestamp) :
    Result Unit × LSMTreeEngine :=
  match e.wal.replayFrom 0 decoded with
  | (.error f, wal) => (.error f, { e with wal := wal })
  | (.ok entries, wal) =>
      (.ok (), { e with wal := wal, memtable := applyWalEntries applied 0 entries e.memtable })

/-- The loop of `load_sstables`. -/
def loadTables (uninit : Uninit) (dir : Directory) : List String → List SSTable
  | [] => []
  | name :: names =>
      match (SSTable.create name).loadIndex uninit dir with
      | (.ok _, t) => t :: loadTables uninit dir names
      | (.error _, _) => loadTables uninit dir names

/-- `LSMTreeEngine::load_sstables`.  The keys of a directory are in increasing
order, which is the order the file names are sorted into. -/
def loadSstables (e : LSMTreeEngine) (uninit : Uninit) : LSMTreeEngine :=
  { e with sstables := e.sstables ++ loadTables uninit e.dir (e.dir.keys.filter hasSstExtension) }

/-- `LSMTreeEngine::open`. -/
def «open» (e : LSMTreeEngine) (uninit : Uninit) (access : LogAccess)
    (decoded applied : ℕ → Timestamp) : Result Unit × LSMTreeEngine :=
  if e.isOpen then (.ok (), e)
  else
    match e.wal.open access with
    | (.error f, wal) => (.error f, { e with wal := wal })
    | (.ok _, wal) =>
        match recoverFromWal { e with wal := wal } decoded applied with
        | (.error f, e) => (.error f, e)
        | (.ok _, e) => (.ok (), { e.loadSstables uninit with isOpen := true })

/-! ## Point operations -/

/-- `LSMTreeEngine::get_from_sstables` on tables given oldest first: the newest
is asked first. -/
def getFromSstables (uninit : Uninit) (dir : Directory) (key : MultiLevelKey) :
    List SSTable → Result DataEntry × List SSTable
  | [] => (.error ⟨.notFound, "Key not found in SSTables"⟩, [])
  | t :: newer =>
      match getFromSstables uninit dir key newer with
      | (.ok entry, newer) => (.ok entry, t :: newer)
      | (.error f, newer) =>
          -- also where a newer table holds a deletion mark
          match t.read uninit dir key with
          | (.ok entry, t) => (.ok entry, t :: newer)
          | (.error _, t) => (.error f, t :: newer)

/-- `LSMTreeEngine::get`. -/
def get (e : LSMTreeEngine) (uninit : Uninit) (key : MultiLevelKey) :
    Result DataEntry × LSMTreeEngine :=
  if !e.isOpen then (.error ⟨.storageError, "LSM tree is not open"⟩, e)
  else
    match e.memtable.get key with
    | .ok entry => (.ok entry, e)
    | .error _ =>
        -- the key is absent or marked as deleted: the older levels are asked either way
        let immutableResult : Option (Result DataEntry) :=
          e.immutableMemtable.map fun m => m.get key
        match immutableResult with
        | some (.ok entry) => (.ok entry, e)
        | _ =>
            match getFromSstables uninit e.dir key e.sstables with
            | (.ok entry, ts) => (.ok entry, { e with sstables := ts })
            | (.error _, ts) => (.error ⟨.notFound, "Key not found"⟩, { e with sstables := ts })

/-- `LSMTreeEngine::put`. -/
def put (e : LSMTreeEngine) (key : MultiLevelKey) (entry : DataEntry) :
    Result Unit × LSMTreeEngine :=
  if !e.isOpen then (.error ⟨.storageError, "LSM tree is not open"⟩, e)
  else
    match e.wal.append ⟨WALEntryType.put, key, entry, 0⟩ with
    | (.error f, wal) => (.error f, { e with wal := wal })
    | (.ok _, wal) =>
        let (r, m) := e.memtable.put key entry
        (r, { e with wal := wal, memtable := m })

/-- `LSMTreeEngine::remove`, at clock reading `now`: the reading taken for the
log record does not reach the log. -/
def remove (e : LSMTreeEngine) (key : MultiLevelKey) (now : Timestamp) :
    Result Unit × LSMTreeEngine :=
  if !e.isOpen then (.error ⟨.storageError, "LSM tree is not open"⟩, e)
  else
    let deleteEntry := { DataEntry.default now with deleted := true, timestamp := now }
    match e.wal.append ⟨WALEntryType.delete, key, deleteEntry, 0⟩ with
    | (.error f, wal) => (.error f, { e with wal := wal })
    | (.ok _, wal) =>
        let (r, m) := e.memtable.remove key now
        (r, { e with wal := wal, memtable := m })

/-! ## Version-checked and multiple operations -/

/-- `LSMTreeEngine::put_if_version_match`; its calls of `get` and `put` are taken
as the bodies of these functions. -/
def putIfVersionMatch (e : LSMTreeEngine) (uninit : Uninit) (key : MultiLevelKey)
    (entry : DataEntry) (expectedVersion : Version) : Result Unit × LSMTreeEngine :=
  if !e.isOpen then (.error ⟨.storageError, "LSM tree is not open"⟩, e)
  else
    let newEntry := { entry with version := expectedVersion + 1 }
    match e.get uninit key with
    | (.ok current, e) =>
        if current.version ≠ expectedVersion then
          (.error ⟨.versionConflict, "Version mismatch"⟩, e)
        else e.put key newEntry
    | (.error _, e) =>
        if expectedVersion ≠ 0 then
          (.error ⟨.versionConflict, "Key does not exist but expected version is not 0"⟩, e)
        else e.put key newEntry

/-- `LSMTreeEngine::remove_if_version_match`, at clock reading `now`. -/
def removeIfVersionMatch (e : LSMTreeEngine) (uninit : Uninit) (key : MultiLevelKey)
    (expectedVersion : Version) (now : Timestamp) : Result Unit × LSMTreeEngine :=
  if !e.isOpen then (.error ⟨.storageError, "LSM tree is not open"⟩, e)
  else
    match e.get uninit key with
    | (.error _, e) => (.error ⟨.notFound, "Key not found"⟩, e)
    | (.ok current, e) =>
        if current.version ≠ expectedVersion then
          (.error ⟨.versionConflict, "Version mismatch"⟩, e)
        else e.remove key now

/-- The loop of `multi_get` over the keys from the `i`-th on; a key that is not
found gives a `DataEntry()`, made at clock reading `clock i`. -/
def multiGetFrom (e : LSMTreeEngine) (uninit : Uninit) (clock : ℕ → Timestamp) :
    ℕ → List MultiLevelKey → List DataEntry × LSMTreeEngine
  | _, [] => ([], e)
  | i, key :: keys =>
      let (result, e) := e.get uninit key
      let (entries, e) := e.multiGetFrom uninit clock (i + 1) keys
      match result with
      | .ok entry => (entry :: entries, e)
      | .error _ => (DataEntry.default (clock i) :: entries, e)

/-- `LSMTreeEngine::multi_get`. -/
def multiGet (e : LSMTreeEngine) (uninit : Uninit) (clock : ℕ → Timestamp)
    (keys : List MultiLevelKey) : Result (List DataEntry) × LSMTreeEngine :=
  let (entries, e) := e.multiGetFrom uninit clock 0 keys
  (.ok entries, e)

/-- `LSMTreeEngine::multi_put`. -/
def multiPut (e : LSMTreeEngine) : List (MultiLevelKey × DataEntry) → Result Unit × LSMTreeEngine
  | [] => (.ok (), e)
  | (key, entry) :: entries =>
      match e.put key entry with
      | (.error f, e) => (.error f, e)
      | (.ok _, e) => e.multiPut entries

/-! ## Scans -/

/-- `merged_results[key] = entry` for every entry of a scan. -/
def insertAll (merged : SortedMap MultiLevelKey DataEntry)
    (entries : List (MultiLevelKey × DataEntry)) : SortedMap MultiLevelKey DataEntry :=
  entries.foldl (fun m e => m.insert e.1 e.2) merged

/-- The same for the keys that have no entry yet. -/
def insertMissing (merged : SortedMap MultiLevelKey DataEntry)
    (entries : List (MultiLevelKey × DataEntry)) : SortedMap MultiLevelKey DataEntry :=
  entries.foldl (fun m e => if (m.find? e.1).isNone then m.insert e.1 e.2 else m) merged

/-- Add the outcome of a scan of one level, if it succeeded. -/
def mergeScan (merged : SortedMap MultiLevelKey DataEntry)
    (scan : Result (List (MultiLevelKey × DataEntry))) : SortedMap MultiLevelKey DataEntry :=
  match scan with
  | .ok entries => insertMissing merged entries
  | .error _ => merged

/-- The loop of `range_scan` over the tables, which are given oldest first: the
newest is scanned first.  `none` where an iterator leaves an index. -/
def scanSstables (uninit : Uninit) (dir : Directory) (query : RangeQuery) :
    List SSTable → SortedMap MultiLevelKey DataEntry →
      Option (SortedMap MultiLevelKey DataEntry) × List SSTable
  | [], merged => (some merged, [])
  | t :: newer, merged =>
      match scanSstables uninit dir query newer merged with
      | (none, newer) => (none, t :: newer)
      | (some merged, newer) =>
          let (scan, t) := t.rangeScan uninit dir query
          (scan.map (mergeScan merged), t :: newer)

/-- `LSMTreeEngine::range_scan`. -/
def rangeScan (e : LSMTreeEngine) (uninit : Uninit) (query : RangeQuery) :
    Option (Result (List (MultiLevelKey × DataEntry))) × LSMTreeEngine :=
  if !e.isOpen then (some (.error ⟨.storageError, "LSM tree is not open"⟩), e)
  else
    match e.memtable.rangeScan query with
    | none => (none, e)
    | some memtableResult =>
        let merged :=
          match memtableResult with
          | .ok entries => insertAll SortedMap.empty entries
          | .error _ => SortedMap.empty
        let merged :=
          match e.immutableMemtable with
          | none => some merged
          | some m => (m.rangeScan query).map (mergeScan merged)
        match merged with
        | none => (none, e)
        | some merged =>
            let (merged, ts) := scanSstables uninit e.dir query e.sstables merged
            (merged.map fun merged =>
              .ok ((merged.entries.filter fun entry => !entry.2.deleted).take query.limit.toNat),
              { e with sstables := ts })

/-! ## Statistics -/

/-- `LSMTreeEngine::size`. -/
def size (e : LSMTreeEngine) : ℕ :=
  e.memtable.size + ((e.immutableMemtable.map MemTable.size).getD 0
    + (e.sstables.map SSTable.size).sum)

/-- `LSMTreeEngine::memory_usage`. -/
def memoryUsage (e : LSMTreeEngine) : UInt64 :=
  e.memtable.memoryUsage + (e.immutableMemtable.map MemTable.memoryUsage).getD 0

/-! ## Flushing -/

/-- The second half of `flush_memtable`: write the memory table, which becomes
immutable first. -/
def flushCurrent (e : LSMTreeEngine) (w : TableWrite) : Result Unit × LSMTreeEngine :=
  match (SSTable.create (e.filenameOf w)).write e.dir e.memtable.getAllData w.outcome with
  | (.error f, _, dir) =>
      -- the entries stay in memory, as the immutable table
      (.error f, { e with
        dir := dir, immutableMemtable := some e.memtable, memtable := MemTable.empty })
  | (.ok _, t, dir) =>
      -- the clock reading of its `DataEntry()` does not reach the log
      let checkpoint : WALEntry := ⟨WALEntryType.checkpoint, ⟨[], []⟩, ⟨[], 0, 0, false⟩, 0⟩
      (.ok (), { e with
        dir := dir
        immutableMemtable := none
        memtable := MemTable.empty
        sstables := e.sstables ++ [t]
        wal := (e.wal.append checkpoint).2 })

/-- `LSMTreeEngine::flush_memtable`: `first` is the write of an immutable memory
table that an earlier flush has left behind. -/
def flushMemtable (e : LSMTreeEngine) (first second : TableWrite) :
    Result Unit × LSMTreeEngine :=
  if e.memtable.size = 0 then (.ok (), e)
  else
    match e.immutableMemtable with
    | none => e.flushCurrent second
    | some m =>
        match (SSTable.create (e.filenameOf first)).write e.dir m.getAllData first.outcome with
        | (.error f, _, dir) => (.error f, { e with dir := dir })
        | (.ok _, t, dir) =>
            flushCurrent { e with dir := dir, sstables := e.sstables ++ [t] } second

/-- `LSMTreeEngine::flush`. -/
def flush (e : LSMTreeEngine) (first second : TableWrite) : Result Unit × LSMTreeEngine :=
  if !e.isOpen then (.error ⟨.storageError, "LSM tree is not open"⟩, e)
  else
    match e.flushMemtable first second with
    | (.error f, e) => (.error f, e)
    | (.ok _, e) =>
        let (r, wal) := e.wal.sync
        (r, { e with wal := wal })

/-! ## Compaction -/

/-- `LSMTreeEngine::compact_sstables`: nothing is ever read from the two oldest
tables, so the merged data is empty. -/
def compactSstables (e : LSMTreeEngine) (w : TableWrite) : Result Unit × LSMTreeEngine :=
  match e.sstables with
  | sstable1 :: sstable2 :: sstables =>
      let mergedData : SortedMap MultiLevelKey DataEntry := SortedMap.empty
      -- both tables have left the list by now, whatever becomes of the write
      match (SSTable.create (e.filenameOf w)).write e.dir mergedData w.outcome with
      | (.error f, _, dir) => (.error f, { e with sstables := sstables, dir := dir })
      | (.ok _, t, dir) =>
          (.ok (), { e with
            sstables := t :: sstables
            dir := (dir.erase sstable1.filename).erase sstable2.filename })
  | _ => (.ok (), e)

/-- `LSMTreeEngine::compact`. -/
def compact (e : LSMTreeEngine) (w : TableWrite) : Result Unit × LSMTreeEngine :=
  if !e.isOpen then (.error ⟨.storageError, "LSM tree is not open"⟩, e)
  else e.compactSstables w

/-- `LSMTreeEngine::need_compaction`. -/
def needCompaction (e : LSMTreeEngine) : Bool := decide (e.maxSstables < e.sstables.length)

/-- One round of `LSMTreeEngine::background_work` under the mutex. -/
def backgroundWork (e : LSMTreeEngine) (first second merged : TableWrite) : LSMTreeEngine :=
  let e := if e.memtable.shouldFlush then (e.flushMemtable first second).2 else e
  if e.needCompaction then (e.compactSstables merged).2 else e

/-! ## Closing -/

/-- `LSMTreeEngine::close`: an error of the flush is dropped. -/
def close (e : LSMTreeEngine) (first second : TableWrite) : Result Unit × LSMTreeEngine :=
  if !e.isOpen then (.ok (), e)
  else
    let e := if e.memtable.size ≠ 0 then (e.flushMemtable first second).2 else e
    (.ok (), { e with wal := e.wal.close.2, isOpen := false })

/-! ## Backups -/

/-- `path(name).filename()`. -/
def fileName (path : String) : String :=
  String.ofList (path.toList.reverse.takeWhile fun c => c ≠ '/').reverse

/-- What the file system does to the copies that a call makes. -/
inductive CopyOutcome where
  | copied
  /-- an exception says `what`, and these files are in the target directory -/
  | threw (what : String) (left : Directory)

/-- The loop of `backup` over the tables, with the target directory so far; it ends
early where the file of a table is missing. -/
def backupTables (dir : Directory) : List SSTable → Directory → Bool × Directory
  | [], target => (true, target)
  | t :: ts, target =>
      match dir.find? t.filename with
      | none => (false, target)
      | some file => backupTables dir ts (target.insert (fileName t.filename) file)

/-- `LSMTreeEngine::backup` to a directory with these files, by file name.  What is in
the directory already stays there; `missing` is what the exception says where the file to be
copied is not there. -/
def backup (e : LSMTreeEngine) (target : Directory) (outcome : CopyOutcome) (missing : String) :
    Result Unit × Directory :=
  if !e.isOpen then (.error ⟨.storageError, "LSM tree is not open"⟩, target)
  else
    match outcome with
    | .threw what left => (.error ⟨.storageError, "Failed to backup: " ++ what⟩, left)
    | .copied =>
        match e.wal.content with
        | none => (.error ⟨.storageError, "Failed to backup: " ++ missing⟩, target)
        | some log =>
            match backupTables e.dir e.sstables (target.insert "wal.log" log) with
            | (false, target) => (.error ⟨.storageError, "Failed to backup: " ++ missing⟩, target)
            | (true, target) => (.ok (), target)

/-- The files of a directory by their paths under `dataDir`, without the log. -/
def dataFiles (dataDir : String) (files : Directory) : Directory :=
  files.entries.foldl (fun dir file =>
    if file.1 = "wal.log" then dir else dir.insert (dataDir ++ "/" ++ file.1) file.2)
    SortedMap.empty

/-- `LSMTreeEngine::restore` from a directory with these files, by file name.  The data
directory is emptied first; the tables in memory are left as they are. -/
def restore (e : LSMTreeEngine) (source : Directory) (outcome : CopyOutcome) :
    Result Unit × LSMTreeEngine :=
  if e.isOpen then (.error ⟨.storageError, "Cannot restore while LSM tree is open"⟩, e)
  else
    let (result, files) :=
      match outcome with
      | .threw what left => (.error ⟨.storageError, "Failed to restore: " ++ what⟩, left)
      | .copied => (.ok (), source)
    (result, { e with
      dir := dataFiles e.dataDir files
      wal := { e.wal with content := files.find? "wal.log" } })

/-- Close the engine and open a new one on the same directory. -/
def reopen (e : LSMTreeEngine) (uninit : Uninit) (first second : TableWrite)
    (decoded applied : ℕ → Timestamp) : LSMTreeEngine :=
  let e := (e.close first second).2
  ((create e.dataDir e.dir e.wal.content e.maxSstables).open uninit .readWrite decoded applied).2

end LSMTreeEngine

end QcDatabase
