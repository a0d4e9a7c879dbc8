/-
# What a backup captures

`backup` copies the log file and the files of the tables.  The log file of an open
engine is empty (`ReachedOnEmptyLog.quietLog`); so a restored engine has the tables of
the backup, in the order of their names, and nothing that was in memory
(`restored_hasLevels`).  `captures_iff` says when the two engines are read alike all the
same.
-/
import QcDatabase.Storage.EngineLog
import QcDatabase.Storage.Runs

namespace QcDatabase

namespace LSMTreeEngine

open SSTable

variable {uninit : Uninit} {e : LSMTreeEngine}

/-! ## The copies -/

/-- The body of the loop of `dataFiles`. -/
def addDataFile (dataDir : String) (dir : Directory) (file : String × Bytes) : Directory :=
  if file.1 = "wal.log" then dir else dir.insert (dataDir ++ "/" ++ file.1) file.2

theorem dataFiles_eq_foldl (dataDir : String) (files : Directory) :
    dataFiles dataDir files = files.entries.foldl (addDataFile dataDir) SortedMap.empty := rfl

theorem path_inj {dataDir name name' : String} :
    dataDir ++ "/" ++ name = dataDir ++ "/" ++ name' ↔ name = name' :=
  String.append_right_inj _

/-- The loop puts the file of a name under its path, unless it is the log. -/
theorem find?_foldl_addDataFile (dataDir name : String) {files : List (String × Bytes)}
    (hs : files.Pairwise fun a b => a.1 < b.1) (dir : Directory) :
    (files.foldl (addDataFile dataDir) dir).find? (dataDir ++ "/" ++ name)
      = if name = "wal.log" then dir.find? (dataDir ++ "/" ++ name)
        else ((files.find? fun file => file.1 = name).map Prod.snd).or
          (dir.find? (dataDir ++ "/" ++ name)) := by
  induction files generalizing dir with
  | nil => split_ifs <;> rfl
  | cons file files ih =>
      obtain ⟨hfile, hfiles⟩ := List.pairwise_cons.mp hs
      rw [List.foldl_cons, ih hfiles, List.find?_cons, addDataFile]
      by_cases hlog : name = "wal.log"
      · rw [if_pos hlog, if_pos hlog]
        split_ifs with hfirst
        · rfl
        · refine SortedMap.find?_insert_ne _ _ ?_
          rw [Ne, path_inj, hlog]
          exact hfirst
      · rw [if_neg hlog, if_neg hlog]
        by_cases hname : file.1 = name
        · -- the names behind it are greater
          have hrest : (files.find? fun file => decide (file.1 = name)) = none := by
            refine List.find?_eq_none.mpr fun other hother => ?_
            simpa [← hname] using ne_of_gt (hfile other hother)
          rw [hrest, if_neg (by rw [hname]; exact hlog), hname, SortedMap.find?_insert_self,
            decide_eq_true rfl]
          rfl
        · rw [decide_eq_false hname]
          split_ifs with hfirst
          · rfl
          · rw [SortedMap.find?_insert_ne _ _ (by rw [Ne, path_inj]; exact hname)]

/-- The loop adds paths of files only. -/
theorem path_of_find?_foldl_addDataFile {dataDir : String} (files : List (String × Bytes))
    {dir : Directory} (hdir : ∀ path file, dir.find? path = some file →
      ∃ name, path = dataDir ++ "/" ++ name) :
    ∀ path file, (files.foldl (addDataFile dataDir) dir).find? path = some file →
      ∃ name, path = dataDir ++ "/" ++ name := by
  induction files generalizing dir with
  | nil => exact hdir
  | cons file files ih =>
      refine ih ?_
      rw [addDataFile]
      split_ifs
      · exact hdir
      · exact SortedMap.forall_find?_insert hdir ⟨file.1, rfl⟩

/-- The files of `dataFiles` under a path. -/
theorem find?_dataFiles (dataDir : String) (files : Directory) (name : String) :
    (dataFiles dataDir files).find? (dataDir ++ "/" ++ name)
      = if name = "wal.log" then none else files.find? name := by
  rw [dataFiles_eq_foldl, find?_foldl_addDataFile dataDir name files.sorted]
  split_ifs
  · rfl
  · exact Option.or_none

/-- Every path of `dataFiles` is that of a file. -/
theorem exists_of_find?_dataFiles {dataDir : String} {files : Directory} {path : String}
    {file : Bytes} (h : (dataFiles dataDir files).find? path = some file) :
    ∃ name, path = dataDir ++ "/" ++ name ∧ name ≠ "wal.log" ∧ files.find? name = some file := by
  obtain ⟨name, rfl⟩ : ∃ name, path = dataDir ++ "/" ++ name := by
    rw [dataFiles_eq_foldl] at h
    refine path_of_find?_foldl_addDataFile files.entries ?_ path file h
    intro path file hfind
    cases hfind
  rw [find?_dataFiles] at h
  split_ifs at h with hlog
  exact ⟨name, rfl, hlog, h⟩

/-- The file name of a table is not that of the log. -/
theorem fileName_ne_walLog {path : String} (h : hasSstExtension path = true) :
    fileName path ≠ "wal.log" := by
  intro hname
  have hlist : (path.toList.reverse.takeWhile fun c => c ≠ '/').reverse = "wal.log".toList := by
    rw [← hname, fileName, String.toList_ofList]
  rw [List.reverse_eq_iff] at hlist
  rw [hasSstExtension] at h
  split at h
  next c rest hrev =>
    rw [hrev, List.takeWhile_cons, if_pos (by decide)] at hlist
    exact absurd (List.cons.inj hlist).1 (by decide)
  next => cases h

/-- What the copies of the tables leave in the target directory. -/
theorem find?_backupTables {dir target target' : Directory} {ts : List SSTable}
    (h : backupTables dir ts target = (true, target')) {name : String} {file : Bytes}
    (hfile : target'.find? name = some file) :
    (target.find? name = some file ∧ ∀ t ∈ ts, fileName t.filename ≠ name) ∨
      ∃ t ∈ ts, fileName t.filename = name ∧ dir.find? t.filename = some file := by
  induction ts generalizing target with
  | nil =>
      obtain rfl := (Prod.mk.inj h).2
      exact Or.inl ⟨hfile, List.forall_mem_nil _⟩
  | cons t ts ih =>
      rw [backupTables] at h
      cases hsource : dir.find? t.filename with
      | none =>
          rw [hsource] at h
          cases h
      | some source =>
          rw [hsource] at h
          rcases ih h with ⟨hbefore, hnames⟩ | ⟨t', ht', hname, hcopied⟩
          · rw [SortedMap.find?_insert] at hbefore
            -- the copy of a later table under the same name would have replaced this one
            split_ifs at hbefore with hsame
            · exact Or.inr ⟨t, List.mem_cons_self, hsame, hsource.trans hbefore⟩
            · exact Or.inl ⟨hbefore, List.forall_mem_cons.mpr ⟨hsame, hnames⟩⟩
          · exact Or.inr ⟨t', List.mem_cons_of_mem _ ht', hname, hcopied⟩

/-- A file that no table overwrites stays. -/
theorem find?_backupTables_of_ne {dir target target' : Directory} {ts : List SSTable}
    (h : backupTables dir ts target = (true, target')) {name : String}
    (hname : ∀ t ∈ ts, fileName t.filename ≠ name) : target'.find? name = target.find? name := by
  induction ts generalizing target with
  | nil =>
      obtain rfl := (Prod.mk.inj h).2
      rfl
  | cons t ts ih =>
      rw [List.forall_mem_cons] at hname
      rw [backupTables] at h
      cases hsource : dir.find? t.filename with
      | none =>
          rw [hsource] at h
          cases h
      | some source =>
          rw [hsource] at h
          rw [ih h hname.2, SortedMap.find?_insert_ne _ _ hname.1]

/-- A backup that reports success has copied the log and every table. -/
theorem backup_ok {target target' : Directory} {outcome : CopyOutcome}
    {missing : String} (h : e.backup target outcome missing = (.ok (), target')) :
    e.isOpen = true ∧ ∃ log, e.wal.content = some log ∧
      backupTables e.dir e.sstables (target.insert "wal.log" log) = (true, target') := by
  rw [backup.eq_def] at h
  split_ifs at h with hclosed
  · cases h
  · rcases outcome with _ | ⟨what, left⟩
    · cases hlog : e.wal.content with
      | none =>
          rw [hlog] at h
          cases h
      | some log =>
          rw [hlog] at h
          dsimp only at h
          rcases hcopies : backupTables e.dir e.sstables (target.insert "wal.log" log) with
            ⟨_ | _, copied⟩
          · rw [hcopies] at h
            cases h
          · rw [hcopies] at h
            obtain rfl := (Prod.mk.inj h).2
            exact ⟨by simpa using hclosed, log, rfl, hcopies⟩
    · cases h

/-! ## The restored engine -/

/-- The table files of a backup, by their paths in the data directory they are restored
to, in increasing order. -/
def tablePaths (dataDir : String) (files : Directory) : List String :=
  (dataFiles dataDir files).keys.filter hasSstExtension

/-- The table files of a backup hold these maps. -/
def HoldsTables (dataDir : String) (files : Directory)
    (ms : List (SortedMap MultiLevelKey DataEntry)) : Prop :=
  List.Forall₂ (WholeFile (dataFiles dataDir files)) (tablePaths dataDir files) ms

theorem forall₂_loadTables_of_wholeFile {dir : Directory} {names : List String}
    (h : ∀ name ∈ names, ∃ m, WholeFile dir name m) (uninit : Uninit) :
    ∃ ms, List.Forall₂ (WholeFile dir) names ms ∧
      List.Forall₂ (TableOf dir) (loadTables uninit dir names) ms := by
  induction names with
  | nil => exact ⟨[], List.Forall₂.nil, List.Forall₂.nil⟩
  | cons name names ih =>
      rw [List.forall_mem_cons] at h
      obtain ⟨m, hwhole⟩ := h.1
      obtain ⟨ms, hnames, htables⟩ := ih h.2
      obtain ⟨hne, hfits, hcolon, hfile⟩ := hwhole
      obtain ⟨hload, htable⟩ :=
        tableOf_loadIndex (SSTable.create name) uninit hne hfits hcolon hfile
      refine ⟨m :: ms, List.Forall₂.cons ⟨hne, hfits, hcolon, hfile⟩ hnames, ?_⟩
      rw [loadTables, hload]
      exact List.Forall₂.cons htable htables

/-- The engine that a new object is after `restore` and `open`. -/
def reopened (uninit : Uninit) (fresh : LSMTreeEngine) (files : Directory)
    (decoded applied : ℕ → Timestamp) : Result Unit × LSMTreeEngine :=
  (fresh.restore files .copied).2.open uninit .readWrite decoded applied

/-- **A restored engine has the tables of the backup**, if the log of the backup is
empty. -/
theorem restored_hasLevels (uninit : Uninit) {files : Directory}
    (hlog : files.find? "wal.log" = some []) {dataDir : String}
    (hwhole : ∀ path ∈ tablePaths dataDir files, ∃ m, WholeFile (dataFiles dataDir files) path m)
    (dir : Directory) (log : Option Bytes) (maxSstables : ℕ) (decoded applied : ℕ → Timestamp) :
    ∃ ms, HoldsTables dataDir files ms ∧
      let restored := reopened uninit (create dataDir dir log maxSstables) files decoded applied
      restored.1 = .ok () ∧ restored.2.isOpen = true ∧
        restored.2.HasLevels (SortedMap.empty :: ms.reverse) := by
  obtain ⟨ms, hnames, htables⟩ := forall₂_loadTables_of_wholeFile hwhole uninit
  obtain ⟨w, w', hopen, hreplay, -⟩ :=
    silentLog_open_replay (dataDir ++ "/wal.log") (show (some []).getD [] = [] from rfl) decoded
  refine ⟨ms, hnames, ?_⟩
  have hrestored : reopened uninit (create dataDir dir log maxSstables) files decoded applied
      = (.ok (), { create dataDir (dataFiles dataDir files) none maxSstables with
          sstables := loadTables uninit (dataFiles dataDir files) (tablePaths dataDir files)
          wal := w', isOpen := true }) := by
    have hwal : ((create dataDir dir log maxSstables).restore files .copied).2.wal.open .readWrite
        = (.ok (), w) := by
      rw [← hopen, ← hlog]
      rfl
    rw [reopened, open_of_replays rfl hwal hreplay]
    rfl
  rw [hrestored]
  exact ⟨rfl, rfl, ms, htables, rfl⟩

/-! ## What is captured -/

/-- What two reads are compared on: status, value and version. -/
def readOutcome (r : Result DataEntry) : Except Status (Bytes × Version) :=
  match r with
  | .ok entry => .ok (entry.value, entry.version)
  | .error f => .error f.status

/-- A new object on another directory, with what a `restore` from these files and an
`open` make of it, is read like the engine. -/
def Captures (uninit uninit' : Uninit) (e fresh : LSMTreeEngine) (files : Directory)
    (decoded applied : ℕ → Timestamp) : Prop :=
  (fresh.restore files .copied).1 = .ok () ∧
    (reopened uninit' fresh files decoded applied).1 = .ok () ∧
    ∀ key, readOutcome ((reopened uninit' fresh files decoded applied).2.get uninit' key).1
      = readOutcome (e.get uninit key).1

/-- The value and the version of the first live entry of a key. -/
def firstLive (levels : List (SortedMap MultiLevelKey DataEntry)) (key : MultiLevelKey) :
    Option (Bytes × Version) :=
  (levels.findSome? fun m => liveEntry m key).map fun entry => (entry.value, entry.version)

theorem readOutcome_found_inj {a b : Option DataEntry} :
    readOutcome (found a) = readOutcome (found b) ↔
      a.map (fun entry => (entry.value, entry.version))
        = b.map fun entry => (entry.value, entry.version) := by
  cases a <;> cases b <;> simp [found, readOutcome]

/-- Every table file of a backup is one that was there before, or the copy of a table of
the engine. -/
theorem wholeFile_of_backup (h : e.TablesIntact) (hcolon : e.KeysColonFree)
    {target target' : Directory} {log : Bytes}
    (hcopies : backupTables e.dir e.sstables (target.insert "wal.log" log) = (true, target'))
    {dataDir : String}
    (htarget : ∀ path ∈ tablePaths dataDir target, ∃ m, WholeFile (dataFiles dataDir target) path m) :
    ∀ path ∈ tablePaths dataDir target', ∃ m, WholeFile (dataFiles dataDir target') path m := by
  intro path hpath
  obtain ⟨hkey, hext⟩ := List.mem_filter.mp hpath
  obtain ⟨file, hfile⟩ : ∃ file, (dataFiles dataDir target').find? path = some file := by
    refine Option.ne_none_iff_exists'.mp ?_
    rw [Ne, SortedMap.find?_eq_none_iff]
    exact not_not.mpr hkey
  obtain ⟨name, rfl, hname, hcopied⟩ := exists_of_find?_dataFiles hfile
  rcases find?_backupTables hcopies hcopied with ⟨hbefore, -⟩ | ⟨t, ht, -, hsource⟩
  · rw [SortedMap.find?_insert_ne _ _ (Ne.symm hname)] at hbefore
    have hold : (dataFiles dataDir target).find? (dataDir ++ "/" ++ name) = some file := by
      rw [find?_dataFiles, if_neg hname, hbefore]
    obtain ⟨m, hne, hfits, hkeys, hm⟩ := htarget (dataDir ++ "/" ++ name) (by
      refine List.mem_filter.mpr ⟨?_, hext⟩
      by_contra hnot
      rw [(SortedMap.find?_eq_none_iff _ _).mpr hnot] at hold
      cases hold)
    refine ⟨m, hne, hfits, hkeys, ?_⟩
    rw [hfile, ← hold, hm]
  · obtain ⟨m, hm⟩ := (h t ht).tableOf
    refine ⟨m, hm.nonempty, hm.fits, ?_, ?_⟩
    · intro key hkey
      rw [SortedMap.keys, ← map_key_indexOf, ← hm.index] at hkey
      obtain ⟨entry, hentry, rfl⟩ := List.mem_map.mp hkey
      exact hcolon.2 t ht entry hentry
    · rw [hfile, ← hsource, hm.file]

/-- **When a backup captures the state.**  The target directory held nothing but whole
tables before. -/
theorem captures_iff (h : ReachedOnEmptyLog uninit e) (hcolon : e.KeysColonFree)
    {target target' : Directory} {outcome : CopyOutcome} {missing : String}
    (hbackup : e.backup target outcome missing = (.ok (), target')) (uninit' : Uninit) {dataDir : String}
    (htarget : ∀ path ∈ tablePaths dataDir target, ∃ m, WholeFile (dataFiles dataDir target) path m)
    (dir : Directory) (log : Option Bytes) (maxSstables : ℕ) (decoded applied : ℕ → Timestamp) :
    ∃ levels ms, e.HasLevels levels ∧ HoldsTables dataDir target' ms ∧
      (Captures uninit uninit' e (create dataDir dir log maxSstables) target' decoded applied ↔
        ∀ key, firstLive ms.reverse key = firstLive levels key) := by
  obtain ⟨hopen, content, hcontent, hcopies⟩ := backup_ok hbackup
  obtain ⟨levels, hlevels⟩ := h.intact.exists_hasLevels
  -- the log was copied first, and no table has its name
  have hlog : target'.find? "wal.log" = some [] := by
    have hempty := h.quietLog.bytes
    rw [WAL.bytes, hcontent, Option.getD_some] at hempty
    rw [find?_backupTables_of_ne hcopies fun t ht => fileName_ne_walLog (h.intact t ht).extension,
      SortedMap.find?_insert_self, hempty]
  have hwhole := wholeFile_of_backup h.intact hcolon hcopies htarget
  obtain ⟨ms, hms, hok, hopened, hrestored⟩ :=
    restored_hasLevels uninit' hlog hwhole dir log maxSstables decoded applied
  refine ⟨levels, ms, hlevels, hms, ?_⟩
  rw [Captures, and_iff_right (by rfl), and_iff_right hok]
  refine forall_congr' fun key => ?_
  rw [hrestored.get_eq hopened, hlevels.get_eq hopen, readOutcome_found_inj, firstLive, firstLive]
  rfl

/-- Two keys are written and flushed. -/
def storedCalls : List PublicCall :=
  [.open .readWrite (fun _ => 0) (fun _ => 0), .put ⟨[97], []⟩ ⟨[1], 1, 0, false⟩,
    .put ⟨[98], []⟩ ⟨[2], 1, 0, false⟩, .flush ⟨sampleTime 1, .written⟩ ⟨sampleTime 2, .written⟩]

/-- The engine after these calls. -/
def storedEngine : LSMTreeEngine :=
  (create "d" SortedMap.empty none 10).callRun ⟨0, 0, 0, 0, 0⟩ storedCalls

/-- The engine after one more `put`, whose entry is in memory only. -/
def unsavedEngine : LSMTreeEngine :=
  (create "d" SortedMap.empty none 10).callRun ⟨0, 0, 0, 0, 0⟩
    (storedCalls ++ [.put ⟨[99], []⟩ ⟨[3], 1, 0, false⟩])

theorem along_storedCalls :
    StepRun.Along (fun e call => callStep e ⟨0, 0, 0, 0, 0⟩ call) (TablesSafe ⟨0, 0, 0, 0, 0⟩)
      (create "d" SortedMap.empty none 10) storedCalls := by
  refine ⟨fun _ => List.forall_mem_nil _, trivial, trivial, fun _ => ?_, trivial⟩
  exact cleanFlush_of_noImmutable (by decide +kernel) (by decide +kernel) (by decide +kernel)
    (by decide +kernel)

/-- A backup of `storedEngine` to an empty directory. -/
theorem captures_storedEngine :
    ∃ levels ms, storedEngine.HasLevels levels ∧
      HoldsTables "r" (storedEngine.backup SortedMap.empty .copied "No such file").2 ms ∧
      (Captures ⟨0, 0, 0, 0, 0⟩ ⟨0, 0, 0, 0, 0⟩ storedEngine (create "r" SortedMap.empty none 10)
          (storedEngine.backup SortedMap.empty .copied "No such file").2 (fun _ => 0) (fun _ => 0) ↔
        ∀ key, firstLive ms.reverse key = firstLive levels key) := by
  have hbackup : storedEngine.backup SortedMap.empty .copied "No such file"
      = (.ok (), (storedEngine.backup SortedMap.empty .copied "No such file").2) :=
    Prod.ext (by decide +kernel) rfl
  refine captures_iff ?_ ?_ hbackup _ ?_ _ _ _ _ _
  · exact ⟨"d", SortedMap.empty, none, 10, storedCalls, rfl, along_storedCalls, rfl⟩
  · exact ⟨by decide +kernel, by decide +kernel⟩
  · exact List.forall_mem_nil _

/-- The entry in memory is lost. -/
theorem not_captures_unsavedEngine :
    ReachedOnEmptyLog ⟨0, 0, 0, 0, 0⟩ unsavedEngine ∧
      (unsavedEngine.backup SortedMap.empty .copied "No such file").1 = .ok () ∧
      ¬ Captures ⟨0, 0, 0, 0, 0⟩ ⟨0, 0, 0, 0, 0⟩ unsavedEngine (create "r" SortedMap.empty none 10)
        (unsavedEngine.backup SortedMap.empty .copied "No such file").2 (fun _ => 0) (fun _ => 0) := by
  refine ⟨⟨"d", SortedMap.empty, none, 10, _, rfl, ?_, rfl⟩, by decide +kernel, fun h => ?_⟩
  · exact StepRun.along_append.mpr ⟨along_storedCalls, trivial, trivial⟩
  · exact absurd (h.2.2 ⟨[99], []⟩) (by decide +kernel)

end LSMTreeEngine

end QcDatabase
