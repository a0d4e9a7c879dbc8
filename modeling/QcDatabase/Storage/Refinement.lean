/-
# The engine refines a map on levels

What the engine is for, while its table writes succeed: a `LeveledMap` from keys
to entries whose dead values are the entries marked as deleted.  `Refines e s`
relates the two: the memory table is the current level, the table files are the
stored levels, and the tables in memory stand in the order of the levels.

Each call of the engine is simulated by the calls of the map: `put` and `remove`
by `write`, a flush by `store`, opening an engine on the files of another by
`reload`.  `Refines.get_eq` says that the reads are lookups.

The log plays no part: from the replay in `open` on its stream has failed, so
that nothing is ever written to the file (`SilentLog`).
-/
import Mathlib.Data.List.Forall2
import QcDatabase.Lib.LeveledMap
import QcDatabase.Storage.PublicCalls
import QcDatabase.Storage.WalSessions

open LeveledMap

namespace QcDatabase

/-- Entries that are not marked as deleted. -/
def DataEntry.live (entry : DataEntry) : Bool := !entry.deleted

theorem liveEntry_eq_liveAt (m : SortedMap MultiLevelKey DataEntry) (key : MultiLevelKey) :
    liveEntry m key = liveAt DataEntry.live m key := rfl

/-- The abstract engine: levels of entries, stored under file names. -/
abbrev Levels := LeveledMap String MultiLevelKey DataEntry

/-! ## The log after the replay -/

/-- A log that is open, whose stream has failed and whose file is empty. -/
structure SilentLog (w : WAL) : Prop where
  isOpen : w.isOpen = true
  attached : w.file.isOpen = true
  failed : w.file.fail = true
  bytes : w.bytes = []

/-- `append` returns `OK` and leaves the file empty. -/
theorem SilentLog.append {w : WAL} (h : SilentLog w) (entry : WALEntry) :
    ∃ wal, w.append entry = (.ok (), wal) ∧ SilentLog wal := by
  rw [WAL.append_of_fail h.isOpen h.failed]
  exact ⟨_, rfl, h.isOpen, h.attached, h.failed, h.bytes⟩

theorem SilentLog.sync {w : WAL} (h : SilentLog w) : w.sync = (.ok (), w) := by
  rw [WAL.sync, if_neg (by simp [h.isOpen])]
  rfl

theorem SilentLog.close_bytes {w : WAL} (h : SilentLog w) : w.close.2.bytes = [] := by
  rw [WAL.close, if_neg (by simp [h.isOpen])]
  exact h.bytes

/-- Opening and replaying an empty log. -/
theorem silentLog_open_replay (walFile : String) {content : Option Bytes}
    (hempty : content.getD [] = []) (now : ℕ → Timestamp) :
    ∃ w w', (WAL.create walFile content).open .readWrite = (.ok (), w) ∧
      w.replayFrom 0 now = (.ok [], w') ∧ SilentLog w' := by
  have hbytes : (WAL.create walFile content).bytes = [] := hempty
  have hopen := WAL.open_of_detached (w := WAL.create walFile content) rfl rfl
  rw [hbytes] at hopen
  obtain ⟨f, hrun, hattached, hfailed⟩ := WAL.replayFrom_of_frames (w := { WAL.create walFile content with
      content := some [], file := ⟨true, 0, false, false, false⟩, isOpen := true })
    rfl ⟨rfl, rfl⟩ (List.forall_mem_nil WALEntry.Loggable) [] (by simp) rfl 0 now
  exact ⟨_, _, hopen, hrun, rfl, hattached, hfailed, rfl⟩

namespace LSMTreeEngine

/-! ## The relation -/

/-- The table in memory that belongs to the stored level of a name. -/
def TableAt (s : Levels) (t : SSTable) (name : String) : Prop :=
  ∃ m, s.files.find? name = some m ∧ t = ⟨name, SSTable.indexOf m.entries, m.size⟩

/-- Engine `e` holds the levels of `s`. -/
structure Refines (e : LSMTreeEngine) (s : Levels) : Prop where
  isOpen : e.isOpen = true
  log : SilentLog e.wal
  immutable : e.immutableMemtable = none
  memtable : e.memtable.data = s.current
  dir : ∀ name, e.dir.find? name = (s.files.find? name).map fun m => SSTable.fileOf m.entries
  fits : ∀ name m, s.files.find? name = some m → SSTable.Fits m.entries ∧ m.entries ≠ []
  extension : ∀ name m, s.files.find? name = some m → hasSstExtension name = true
  sstables : List.Forall₂ (TableAt s) e.sstables s.order
  wellFormed : s.WellFormed

/-- The file of a table in memory is there. -/
theorem Refines.tableOf {e : LSMTreeEngine} {s : Levels} (h : Refines e s) {t : SSTable}
    {name : String} {m : SortedMap MultiLevelKey DataEntry} (hm : s.files.find? name = some m)
    (ht : t = ⟨name, SSTable.indexOf m.entries, m.size⟩) : SSTable.TableOf e.dir t m := by
  obtain ⟨hfits, hne⟩ := h.fits name m hm
  rw [ht]
  exact ⟨hfits, hne, by rw [h.dir name, hm]; rfl, rfl⟩

/-- Tables and levels answer alike. -/
theorem Refines.map_read {e : LSMTreeEngine} {s : Levels} (h : Refines e s) (uninit : Uninit)
    (key : MultiLevelKey) {ts : List SSTable} {names : List String}
    (hts : List.Forall₂ (TableAt s) ts names) :
    ts.map (fun t => (t.read uninit e.dir key).1.toOption)
      = names.map fun n => (s.files.find? n).bind fun m => liveAt DataEntry.live m key := by
  induction hts with
  | nil => rfl
  | cons ht _ ih =>
      obtain ⟨m, hm, heq⟩ := ht
      rw [List.map_cons, List.map_cons, ih, (h.tableOf hm heq).read_eq uninit key,
        SSTable.toOption_answer, hm]
      rfl

/-- **Reads are lookups.** -/
theorem Refines.get_eq {e : LSMTreeEngine} {s : Levels} (h : Refines e s) (uninit : Uninit)
    (key : MultiLevelKey) :
    (e.get uninit key).1 = found (s.lookup DataEntry.live key) := by
  have htables : (tableAnswers uninit e.dir key e.sstables).findSome? id
      = s.storedLookup DataEntry.live key := by
    rw [tableAnswers, List.map_reverse, h.map_read uninit key h.sstables, ← List.map_reverse,
      List.findSome?_map]
    rfl
  rw [LSMTreeEngine.get_eq h.isOpen, answers, h.immutable, h.memtable, List.findSome?_cons,
    Option.toList_none, List.map_nil, List.nil_append, htables, lookup, liveEntry_eq_liveAt]
  cases liveAt DataEntry.live s.current key <;> rfl

/-! ## Writing -/

/-- An accepted `put` writes its entry. -/
theorem Refines.put {e : LSMTreeEngine} {s : Levels} (h : Refines e s) {key : MultiLevelKey}
    {entry : DataEntry} (ha : Accepted key entry) :
    (e.put key entry).1 = .ok () ∧ Refines (e.put key entry).2 (s.write key entry) := by
  obtain ⟨wal, hw, hlog⟩ := h.log.append ⟨WALEntryType.put, key, entry, 0⟩
  obtain ⟨hput, hdata⟩ := MemTable.put_of_accepted (m := e.memtable) ha
  rw [LSMTreeEngine.put, if_neg (by simp [h.isOpen]), hw]
  exact ⟨hput, { h with log := hlog, memtable := by rw [hdata, h.memtable]; rfl }⟩

/-- A `put` that is not accepted changes nothing but the log. -/
theorem Refines.put_of_not_accepted {e : LSMTreeEngine} {s : Levels} (h : Refines e s)
    {key : MultiLevelKey} {entry : DataEntry} (ha : ¬ Accepted key entry) :
    Result.isOk (e.put key entry).1 = false ∧ Refines (e.put key entry).2 s := by
  obtain ⟨wal, hw, hlog⟩ := h.log.append ⟨WALEntryType.put, key, entry, 0⟩
  obtain ⟨hput, hsame⟩ := MemTable.put_of_not_accepted (m := e.memtable) ha
  rw [LSMTreeEngine.put, if_neg (by simp [h.isOpen]), hw]
  refine ⟨hput, { h with log := hlog, memtable := ?_ }⟩
  show (e.memtable.put key entry).2.data = s.current
  rw [hsame, h.memtable]

/-- `remove` writes a deletion mark. -/
theorem Refines.remove {e : LSMTreeEngine} {s : Levels} (h : Refines e s) (key : MultiLevelKey)
    (now : Timestamp) :
    (e.remove key now).1 = .ok () ∧
      Refines (e.remove key now).2 (s.write key (deletionMark (s.current.find? key) now)) := by
  obtain ⟨wal, hw, hlog⟩ := h.log.append ⟨WALEntryType.delete, key,
    { DataEntry.default now with deleted := true, timestamp := now }, 0⟩
  obtain ⟨hremove, hdata⟩ := e.memtable.remove_eq key now
  rw [LSMTreeEngine.remove, if_neg (by simp [h.isOpen])]
  dsimp only
  rw [hw]
  exact ⟨hremove, { h with log := hlog, memtable := by rw [hdata, h.memtable]; rfl }⟩

/-! ## Flushing -/

/-- Generated file names have the extension of tables. -/
theorem hasSstExtension_generateSstableFilename (dataDir : String) (now : LocalTime) :
    hasSstExtension (generateSstableFilename dataDir now) = true := by
  have hdigit : ∀ d < 10, Nat.digitChar d ≠ '/' := by decide
  have hslash := hdigit (now.millisecond % 10) (Nat.mod_lt _ (by omega))
  have hstamp : ∃ front, now.stamp = front ++ [Nat.digitChar (now.millisecond % 10)] :=
    ⟨_, (List.append_assoc _ _ _).symm⟩
  obtain ⟨front, hfront⟩ := hstamp
  rw [hasSstExtension, generateSstableFilename, hfront, String.toList_append, String.toList_ofList]
  simp [hslash]

/-- A flush has something to write, or it writes it successfully under a fresh
name. -/
def FlushSucceeds (e : LSMTreeEngine) (w : TableWrite) : Prop :=
  e.memtable.size ≠ 0 → e.dir.find? (e.filenameOf w) = none ∧ w.outcome = .written ∧
    SSTable.Fits e.memtable.data.entries

/-- `size() == 0` iff there are no entries. -/
theorem size_eq_zero_iff (m : MemTable) : m.size = 0 ↔ m.data.entries = [] :=
  List.length_eq_zero_iff

/-- A stored level keeps its table when another one is stored under a fresh
name. -/
theorem TableAt.store {s : Levels} {t : SSTable} {name fresh : String} (h : TableAt s t name)
    (m : SortedMap MultiLevelKey DataEntry) (hfresh : s.files.find? fresh = none) :
    TableAt ⟨SortedMap.empty, s.files.insert fresh m, s.order ++ [fresh]⟩ t name := by
  obtain ⟨m', hm', ht⟩ := h
  have hname : fresh ≠ name := by
    rintro rfl
    rw [hfresh] at hm'
    cases hm'
  exact ⟨m', by rw [SortedMap.find?_insert_ne _ _ hname]; exact hm', ht⟩

/-- **A successful flush stores the current level.** -/
theorem Refines.flushMemtable {e : LSMTreeEngine} {s : Levels} (h : Refines e s)
    (first : TableWrite) {second : TableWrite} (hw : e.FlushSucceeds second) :
    (e.flushMemtable first second).1 = .ok () ∧
      Refines (e.flushMemtable first second).2 (s.store (e.filenameOf second)) := by
  by_cases hsize : e.memtable.size = 0
  · have hempty := (size_eq_zero_iff _).mp hsize
    rw [LSMTreeEngine.flushMemtable, if_pos hsize, LeveledMap.store, ← h.memtable, if_pos hempty]
    exact ⟨rfl, h⟩
  obtain ⟨hfresh, hwritten, hfits⟩ := hw hsize
  have hne : e.memtable.data.entries ≠ [] := fun h0 => hsize ((size_eq_zero_iff _).mpr h0)
  have hfresh' : s.files.find? (e.filenameOf second) = none := by
    have hdir := h.dir (e.filenameOf second)
    rw [hfresh] at hdir
    exact Option.map_eq_none_iff.mp hdir.symm
  obtain ⟨hwrite, -⟩ :=
    SSTable.tableOf_write (SSTable.create (e.filenameOf second)) e.dir hne hfits
  rw [SSTable.create_filename] at hwrite
  rw [LSMTreeEngine.flushMemtable, if_neg hsize, LeveledMap.store, ← h.memtable, if_neg hne,
    h.immutable]
  dsimp only
  rw [flushCurrent, MemTable.getAllData, hwritten, hwrite]
  dsimp only
  -- there was no immutable table, so the new one is the only table added
  refine ⟨rfl, {
    isOpen := h.isOpen
    log := ?_
    immutable := rfl
    memtable := rfl
    dir := ?_
    fits := SortedMap.forall_find?_insert h.fits ⟨hfits, hne⟩
    extension := SortedMap.forall_find?_insert h.extension
      (hasSstExtension_generateSstableFilename _ _)
    sstables := ?_
    wellFormed := ?_ }⟩
  · obtain ⟨wal, hw, hlog⟩ := h.log.append ⟨WALEntryType.checkpoint, ⟨[], []⟩, ⟨[], 0, 0, false⟩, 0⟩
    show SilentLog (e.wal.append _).2
    rw [hw]
    exact hlog
  · intro name
    dsimp only
    rw [SortedMap.find?_insert, SortedMap.find?_insert]
    split_ifs
    · rfl
    · exact h.dir name
  · refine List.rel_append (h.sstables.imp fun t name ht => ht.store _ hfresh')
      (List.Forall₂.cons ?_ List.Forall₂.nil)
    exact ⟨e.memtable.data, SortedMap.find?_insert_self _ _ _, rfl⟩
  · have hwf := h.wellFormed.store (e.filenameOf second)
    rwa [LeveledMap.store, ← h.memtable, if_neg hne] at hwf

/-- The explicit flush synchronizes the log afterwards. -/
theorem Refines.flush {e : LSMTreeEngine} {s : Levels} (h : Refines e s)
    (first : TableWrite) {second : TableWrite} (hw : e.FlushSucceeds second) :
    (e.flush first second).1 = .ok () ∧
      Refines (e.flush first second).2 (s.store (e.filenameOf second)) := by
  obtain ⟨hok, hrefines⟩ := h.flushMemtable first hw
  rcases hf : e.flushMemtable first second with ⟨r, e'⟩
  rw [hf] at hok hrefines
  obtain rfl : r = .ok () := hok
  rw [LSMTreeEngine.flush, if_neg (by simp [h.isOpen]), hf]
  dsimp only at hrefines ⊢
  rw [hrefines.log.sync]
  exact ⟨rfl, hrefines⟩

/-! ## Opening -/

/-- The tables of stored levels load. -/
theorem forall₂_loadTables {s : Levels} {dir : Directory} (uninit : Uninit)
    (hdir : ∀ name, dir.find? name = (s.files.find? name).map fun m => SSTable.fileOf m.entries)
    (hfits : ∀ name m, s.files.find? name = some m → SSTable.Fits m.entries ∧ m.entries ≠ [])
    (hcolon : ∀ name m, s.files.find? name = some m → ∀ key ∈ m.keys, key.ColonFree)
    {names : List String} (hnames : ∀ name ∈ names, (s.files.find? name).isSome = true) :
    List.Forall₂ (TableAt s) (loadTables uninit dir names) names := by
  induction names with
  | nil => exact List.Forall₂.nil
  | cons name names ih =>
      obtain ⟨m, hm⟩ := Option.isSome_iff_exists.mp (hnames name List.mem_cons_self)
      obtain ⟨hfit, hne⟩ := hfits name m hm
      obtain ⟨hload, -⟩ := SSTable.tableOf_loadIndex (SSTable.create name) uninit hne hfit
        (hcolon name m hm) (by rw [SSTable.create_filename, hdir name, hm]; rfl)
      rw [loadTables, hload]
      exact List.Forall₂.cons ⟨m, hm, rfl⟩
        (ih fun other hother => hnames other (List.mem_cons_of_mem _ hother))

/-- **Opening a new engine on the files of stored levels reloads them.** -/
theorem refines_open {dataDir : String} {dir : Directory} {log : Option Bytes} (maxSstables : ℕ)
    {s : Levels} (hlog : log.getD [] = [])
    (hdir : ∀ name, dir.find? name = (s.files.find? name).map fun m => SSTable.fileOf m.entries)
    (hfits : ∀ name m, s.files.find? name = some m → SSTable.Fits m.entries ∧ m.entries ≠ [])
    (hext : ∀ name m, s.files.find? name = some m → hasSstExtension name = true)
    (hcolon : ∀ name m, s.files.find? name = some m → ∀ key ∈ m.keys, key.ColonFree)
    (uninit : Uninit) (decoded applied : ℕ → Timestamp) :
    Refines ((create dataDir dir log maxSstables).open uninit .readWrite decoded applied).2 s.reload := by
  have hwf := WellFormed.reload s
  have hkeys : dir.keys = s.files.keys := by
    refine SortedMap.eq_of_mem_iff dir.keys_sorted s.files.keys_sorted ?_
    intro name
    rw [← not_iff_not, ← SortedMap.find?_eq_none_iff, ← SortedMap.find?_eq_none_iff, hdir name,
      Option.map_eq_none_iff]
  -- every file of the directory is a table file
  have hfilter : dir.keys.filter hasSstExtension = s.files.keys := by
    rw [hkeys]
    refine List.filter_eq_self.mpr ?_
    intro name hname
    obtain ⟨m, hm⟩ := Option.isSome_iff_exists.mp ((hwf name).mp hname)
    exact hext name m hm
  obtain ⟨w, w', hopen, hreplay, hsilent⟩ :=
    silentLog_open_replay (dataDir ++ "/wal.log") hlog decoded
  have hwal : (create dataDir dir log maxSstables).wal.open .readWrite = (.ok (), w) := hopen
  rw [open_of_replays rfl hwal hreplay]
  exact {
    isOpen := rfl
    log := hsilent
    immutable := rfl
    memtable := rfl
    dir := hdir
    fits := hfits
    extension := hext
    sstables := by
      show List.Forall₂ _ ([] ++ loadTables uninit dir (dir.keys.filter hasSstExtension)) _
      rw [hfilter, List.nil_append]
      exact forall₂_loadTables uninit hdir hfits hcolon fun name hname => (hwf name).mp hname
    wellFormed := hwf }

/-- A new engine in an empty directory. -/
theorem refines_open_empty (dataDir : String) (maxSstables : ℕ) (uninit : Uninit)
    (decoded applied : ℕ → Timestamp) :
    Refines ((create dataDir SortedMap.empty none maxSstables).open uninit .readWrite decoded applied).2
      LeveledMap.empty := by
  refine refines_open (s := LeveledMap.empty) maxSstables rfl ?_ ?_ ?_ ?_ uninit decoded applied
  · intro name
    rfl
  all_goals
    intro name m hm
    cases hm

end LSMTreeEngine

end QcDatabase
