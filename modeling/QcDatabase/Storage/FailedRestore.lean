/-
# What a failed `restore` leaves

`LSMTreeEngine::restore` empties the data directory before it looks at the backup.  An
exception after that, from the iteration over the backup directory or from a copy, is
caught and reported, and nothing is put back.  So the files are the same afterwards only
if those copied before the exception happen to be the ones that were there
(`harmless_iff`); if the backup cannot be opened, no file is left
(`restoreFrom_notOpened`).

`restoreFrom` goes through the entries of the backup one by one; it is a `restore` with
the outcome that comes of it (`restoreFrom_eq_restore`).
-/
import QcDatabase.Storage.LsmTree

namespace QcDatabase

/-! ## The backup directory -/

/-- An entry of a directory. -/
structure DirectoryEntry where
  name : String
  content : Bytes
  isRegularFile : Bool
  deriving DecidableEq, Repr

/-- An exception in `restore`, with what is in the emptied directory of the file that was
being copied, if one was. -/
structure CopyFailure where
  what : String
  torn : Option (String × Bytes)
  deriving DecidableEq, Repr

/-- What `restore` meets in the backup directory: these entries, each of which is copied or
skipped, and then the end of the directory or an exception.  A directory that is missing or
cannot be read throws before the first entry. -/
structure BackupReading where
  entries : List DirectoryEntry
  distinct : (entries.map DirectoryEntry.name).Nodup
  failure : Option CopyFailure
  /-- what an exception says where a file of the name is there already -/
  fileExists : String

/-- The files of a directory with what is left of a torn copy. -/
def CopyFailure.leave (f : CopyFailure) (files : Directory) : Directory :=
  match f.torn with
  | none => files
  | some (name, content) => files.insert name content

/-- Put a copy of an entry into a directory, if it is a regular file. -/
def copyEntry (files : Directory) (entry : DirectoryEntry) : Directory :=
  if entry.isRegularFile then files.insert entry.name entry.content else files

/-- The regular files among the entries, by name. -/
def BackupReading.files (b : BackupReading) : Directory :=
  b.entries.foldl copyEntry SortedMap.empty

namespace LSMTreeEngine

/-! ## The copy loop -/

/-- The loop of `restore` over the entries, with the files of the data directory by name;
an existing file is not overwritten. -/
def copyEntries (fileExists : String) :
    List DirectoryEntry → Directory → Option String × Directory
  | [], files => (none, files)
  | entry :: entries, files =>
      if !entry.isRegularFile then copyEntries fileExists entries files
      else if (files.find? entry.name).isSome then (some fileExists, files)
      else copyEntries fileExists entries (files.insert entry.name entry.content)

/-- The engine with these files in its data directory, by name. -/
def withFiles (e : LSMTreeEngine) (files : Directory) : LSMTreeEngine :=
  { e with
    dir := dataFiles e.dataDir files
    wal := { e.wal with content := files.find? "wal.log" } }

/-- `LSMTreeEngine::restore`, entry by entry; the old files can all be removed. -/
def restoreFrom (e : LSMTreeEngine) (b : BackupReading) : Result Unit × LSMTreeEngine :=
  if e.isOpen then (.error ⟨.storageError, "Cannot restore while LSM tree is open"⟩, e)
  else
    match copyEntries b.fileExists b.entries SortedMap.empty with
    | (some what, files) =>
        (.error ⟨.storageError, "Failed to restore: " ++ what⟩, e.withFiles files)
    | (none, files) =>
        match b.failure with
        | some f =>
            (.error ⟨.storageError, "Failed to restore: " ++ f.what⟩, e.withFiles (f.leave files))
        | none => (.ok (), e.withFiles files)

/-- The names in a directory are distinct, so nothing is in the way of a copy. -/
theorem copyEntries_eq {fileExists : String} {entries : List DirectoryEntry} {files : Directory}
    (hdistinct : (entries.map DirectoryEntry.name).Nodup)
    (hfree : ∀ entry ∈ entries, files.find? entry.name = none) :
    copyEntries fileExists entries files = (none, entries.foldl copyEntry files) := by
  induction entries generalizing files with
  | nil => rfl
  | cons entry entries ih =>
      rw [List.map_cons, List.nodup_cons] at hdistinct
      rw [List.forall_mem_cons] at hfree
      rw [copyEntries, List.foldl_cons, copyEntry]
      cases entry.isRegularFile with
      | false => exact ih hdistinct.2 hfree.2
      | true =>
          rw [if_neg (by simp), hfree.1, if_neg (by simp), if_pos rfl]
          refine ih hdistinct.2 fun other hother => ?_
          have hne : entry.name ≠ other.name :=
            fun heq => hdistinct.1 (heq ▸ List.mem_map_of_mem hother)
          rw [SortedMap.find?_insert_ne _ _ hne]
          exact hfree.2 other hother

variable {e : LSMTreeEngine} {b : BackupReading} {f : CopyFailure}

theorem copyEntries_backup (b : BackupReading) :
    copyEntries b.fileExists b.entries SortedMap.empty = (none, b.files) :=
  copyEntries_eq b.distinct fun _ _ => SortedMap.find?_empty _

/-! ## The results of `restore` -/

theorem restoreFrom_of_open (hopen : e.isOpen = true) : e.restoreFrom b
    = (.error ⟨.storageError, "Cannot restore while LSM tree is open"⟩, e) := by
  rw [restoreFrom, if_pos hopen]

theorem restoreFrom_of_none (hclosed : e.isOpen = false) (hok : b.failure = none) :
    e.restoreFrom b = (.ok (), e.withFiles b.files) := by
  rw [restoreFrom, hclosed, copyEntries_backup, hok]
  rfl

theorem restoreFrom_of_some (hclosed : e.isOpen = false) (hf : b.failure = some f) :
    e.restoreFrom b = (.error ⟨.storageError, "Failed to restore: " ++ f.what⟩,
      e.withFiles (f.leave b.files)) := by
  rw [restoreFrom, hclosed, copyEntries_backup, hf]
  rfl

/-- How the copy of a backup ends. -/
def copyOutcome (b : BackupReading) : CopyOutcome :=
  match b.failure with
  | none => .copied
  | some f => .threw f.what (f.leave b.files)

/-- The copy of the entries is one that `restore` allows for. -/
theorem restoreFrom_eq_restore (e : LSMTreeEngine) (b : BackupReading) :
    e.restoreFrom b = e.restore b.files (copyOutcome b) := by
  rw [restore.eq_def, copyOutcome]
  cases hopen : e.isOpen with
  | true => rw [restoreFrom_of_open hopen, if_pos rfl]
  | false =>
      rw [if_neg Bool.false_ne_true, ← hopen]
      cases hfailure : b.failure with
      | none => exact restoreFrom_of_none hopen hfailure
      | some f => exact restoreFrom_of_some hopen hfailure

/-! ## When a failure is harmless -/

/-- The data directory holds these files, by name. -/
def Holds (e : LSMTreeEngine) (files : Directory) : Prop :=
  e.dir = dataFiles e.dataDir files ∧ e.wal.content = files.find? "wal.log"

/-- If `restore` reports an error, the files of the data directory are the same. -/
def RestoreHarmless (e : LSMTreeEngine) (b : BackupReading) : Prop :=
  ∀ failure, (e.restoreFrom b).1 = .error failure →
    (e.restoreFrom b).2.dir = e.dir ∧ (e.restoreFrom b).2.wal.content = e.wal.content

/-- **When a failed restore is harmless**: the files that were copied before the exception
are the ones that were in the data directory. -/
theorem harmless_iff (e : LSMTreeEngine) (b : BackupReading) :
    e.RestoreHarmless b ↔
      (e.isOpen = false → ∀ f, b.failure = some f → e.Holds (f.leave b.files)) := by
  rw [RestoreHarmless]
  cases hopen : e.isOpen with
  | true =>
      rw [restoreFrom_of_open hopen]
      exact iff_of_true (fun _ _ => ⟨rfl, rfl⟩) Bool.noConfusion
  | false =>
      cases hfailure : b.failure with
      | none =>
          rw [restoreFrom_of_none hopen hfailure]
          refine iff_of_true (fun failure h => ?_) fun _ f h => ?_
          · cases h
          · cases h
      | some f =>
          rw [restoreFrom_of_some hopen hfailure]
          constructor
          · rintro hharmless - f' hf'
            obtain rfl := Option.some.inj hf'
            obtain ⟨hdir, hlog⟩ := hharmless _ rfl
            exact ⟨hdir.symm, hlog.symm⟩
          · intro hholds failure _
            obtain ⟨hdir, hlog⟩ := hholds rfl f rfl
            exact ⟨hdir.symm, hlog.symm⟩

/-- A backup directory that cannot be opened. -/
def notOpened (what : String) : BackupReading := ⟨[], List.nodup_nil, some ⟨what, none⟩, what⟩

/-- **A backup that cannot be opened** costs all files of the data directory. -/
theorem restoreFrom_notOpened (hclosed : e.isOpen = false) (what : String) :
    (e.restoreFrom (notOpened what)).1
        = .error ⟨.storageError, "Failed to restore: " ++ what⟩ ∧
      (e.restoreFrom (notOpened what)).2.dir = SortedMap.empty ∧
      (e.restoreFrom (notOpened what)).2.wal.content = none := by
  rw [restoreFrom_of_some hclosed rfl]
  exact ⟨rfl, rfl, rfl⟩

/-- A closed engine with one file in its data directory. -/
def sampleClosed : LSMTreeEngine := create "d" (SortedMap.empty.insert "d/a.sst" [1]) none 10

/-- The path of the backup is mistyped. -/
theorem not_harmless_sampleClosed :
    sampleClosed.isOpen = false ∧ sampleClosed.dir.keys = ["d/a.sst"] ∧
      (sampleClosed.restoreFrom (notOpened "No such file or directory")).2.dir.keys = [] ∧
      ¬ sampleClosed.RestoreHarmless (notOpened "No such file or directory") := by
  refine ⟨rfl, rfl, rfl, fun hharmless => ?_⟩
  obtain ⟨hdir, -⟩ := hharmless _ rfl
  exact absurd (congrArg SortedMap.keys hdir) (by decide)

end LSMTreeEngine

end QcDatabase
