/-
# What a successful flush leaves behind

A flush that fails parks its entries in the immutable memory table.  A later
flush writes them first, but only if it writes anything at all: with an empty
memory table it returns at once, and says `OK`.  Both writes of one flush take
their file names from the clock; in one millisecond the second file replaces the
first.  And a write says `OK` for a file that ends early.

`SafeEntry` says when an entry is in a table after a flush that reports success
(`stored_iff`), and `memoryStored_iff` what follows for the entries in memory, for
`flush` and for the flush in `close`, from any state of the engine.
-/
import QcDatabase.Storage.TableFiles

open QcDatabase.SSTable

namespace QcDatabase.LSMTreeEngine

/-! ## The files of a successful flush -/

/-- A flush of the memory table that reports success has added a table and a file. -/
theorem flushCurrent_ok {e : LSMTreeEngine} {w : TableWrite}
    (h : (e.flushCurrent w).1 = .ok ()) :
    ∃ t file, t.filename = e.filenameOf w ∧ LeavesFile w.outcome e.memtable.data.entries file ∧
      (e.flushCurrent w).2.sstables = e.sstables ++ [t] ∧
      (e.flushCurrent w).2.dir = e.dir.insert (e.filenameOf w) file := by
  rw [flushCurrent] at h ⊢
  rcases hwrite : (SSTable.create (e.filenameOf w)).write e.dir e.memtable.getAllData w.outcome with
    ⟨_ | _, t, dir⟩
  · rw [hwrite] at h
    cases h
  · obtain ⟨hname, file, hdir, hleaves⟩ := write_ok hwrite
    exact ⟨t, file, hname, hleaves, rfl, hdir⟩

/-- The same for the whole flush, which may have written the immutable table first. -/
theorem flushMemtable_ok {e : LSMTreeEngine} {first second : TableWrite}
    (hsize : e.memtable.size ≠ 0) (h : (e.flushMemtable first second).1 = .ok ()) :
    match e.immutableMemtable with
    | none => ∃ t file, t.filename = e.filenameOf second ∧
        LeavesFile second.outcome e.memtable.data.entries file ∧
        (e.flushMemtable first second).2.sstables = e.sstables ++ [t] ∧
        (e.flushMemtable first second).2.dir = e.dir.insert (e.filenameOf second) file
    | some m => ∃ t t' file file', t.filename = e.filenameOf first ∧
        t'.filename = e.filenameOf second ∧ LeavesFile first.outcome m.data.entries file ∧
        LeavesFile second.outcome e.memtable.data.entries file' ∧
        (e.flushMemtable first second).2.sstables = e.sstables ++ [t] ++ [t'] ∧
        (e.flushMemtable first second).2.dir
          = (e.dir.insert (e.filenameOf first) file).insert (e.filenameOf second) file' := by
  rw [flushMemtable, if_neg hsize] at h ⊢
  cases himm : e.immutableMemtable with
  | none =>
      rw [himm] at h
      exact flushCurrent_ok h
  | some m =>
      rw [himm] at h
      dsimp only at h ⊢
      rcases hwrite : (SSTable.create (e.filenameOf first)).write e.dir m.getAllData first.outcome
        with ⟨_ | _, t, dir⟩
      · rw [hwrite] at h
        cases h
      · rw [hwrite] at h
        obtain ⟨hname, file, rfl, hleaves⟩ := write_ok hwrite
        obtain ⟨t', file', hname', hleaves', hsstables, hdir⟩ := flushCurrent_ok h
        exact ⟨t, t', file, file', hname, hname', hleaves, hleaves', hsstables, hdir⟩

/-! ## Entries in memory and in tables -/

/-- An entry in one of the two memory tables. -/
def InMemory (e : LSMTreeEngine) (key : MultiLevelKey) (entry : DataEntry) : Prop :=
  e.memtable.data.find? key = some entry ∨
    ∃ m, e.immutableMemtable = some m ∧ m.data.find? key = some entry

/-- An entry in the file of one of the tables. -/
def Stored (e : LSMTreeEngine) (key : MultiLevelKey) (entry : DataEntry) : Prop :=
  ∃ t ∈ e.sstables, FileHolds e.dir t.filename key entry

/-- A call with a flush in it. -/
inductive FlushingCall where
  | flush
  | close
  deriving DecidableEq

/-- What the flush in a call reports, and the engine after the call.  On an engine
that is not open, `close` returns before its flush. -/
def flushing (e : LSMTreeEngine) (first second : TableWrite) :
    FlushingCall → Result Unit × LSMTreeEngine
  | .flush => e.flush first second
  | .close =>
      if e.isOpen then ((e.flushMemtable first second).1, (e.close first second).2)
      else (.error ⟨.storageError, "LSM tree is not open"⟩, e)

/-- The flush writes a file under this name. -/
def WritesFile (e : LSMTreeEngine) (first second : TableWrite) (name : String) : Prop :=
  e.memtable.size ≠ 0 ∧
    (name = e.filenameOf second ∨ e.immutableMemtable ≠ none ∧ name = e.filenameOf first)

/-- The entry is safe in the flush: the memory table has it and is written whole; or the
immutable table has it, is written at all, whole and to a file of its own; or a table whose
file stays has it. -/
def SafeEntry (e : LSMTreeEngine) (first second : TableWrite) (key : MultiLevelKey)
    (entry : DataEntry) : Prop :=
  (second.outcome = .written ∧ (key.toString, entry) ∈ records e.memtable.data.entries) ∨
    (∃ m, e.immutableMemtable = some m ∧ e.memtable.size ≠ 0 ∧ first.outcome = .written ∧
      e.filenameOf first ≠ e.filenameOf second ∧ (key.toString, entry) ∈ records m.data.entries) ∨
    ∃ t ∈ e.sstables, ¬ e.WritesFile first second t.filename ∧ FileHolds e.dir t.filename key entry

/-- Every entry in memory is safe. -/
def MemorySafe (e : LSMTreeEngine) (first second : TableWrite) : Prop :=
  ∀ key entry, e.InMemory key entry → e.SafeEntry first second key entry

/-- Tables and files are those that the flush has left. -/
theorem flushing_eq {e : LSMTreeEngine} {first second : TableWrite} {call : FlushingCall}
    (h : (e.flushing first second call).1 = .ok ()) :
    (e.flushMemtable first second).1 = .ok () ∧
      (e.flushing first second call).2.sstables = (e.flushMemtable first second).2.sstables ∧
      (e.flushing first second call).2.dir = (e.flushMemtable first second).2.dir := by
  cases call with
  | flush =>
      rw [flushing, flush] at h ⊢
      by_cases hopen : (!e.isOpen) = true
      · rw [if_pos hopen] at h
        cases h
      · rw [if_neg hopen] at h ⊢
        rcases hflush : e.flushMemtable first second with ⟨_ | ⟨⟩, e'⟩
        · rw [hflush] at h
          cases h
        · exact ⟨rfl, rfl, rfl⟩
  | close =>
      rw [flushing] at h ⊢
      by_cases hopen : e.isOpen = true
      · rw [if_pos hopen] at h ⊢
        refine ⟨h, ?_⟩
        rw [close, if_neg (by simp [hopen])]
        by_cases hsize : e.memtable.size = 0
        · -- the guard in `close` is the first line of `flush_memtable`
          rw [if_neg (not_not.mpr hsize), flushMemtable, if_pos hsize]
          exact ⟨rfl, rfl⟩
        · rw [if_pos hsize]
          exact ⟨rfl, rfl⟩
      · rw [if_neg hopen] at h
        cases h

/-- Nothing is written while the memory table is empty. -/
theorem flushMemtable_of_empty {e : LSMTreeEngine} (hsize : e.memtable.size = 0)
    (first second : TableWrite) : e.flushMemtable first second = (.ok (), e) := by
  rw [flushMemtable, if_pos hsize]

section

variable {e e' : LSMTreeEngine} {first second : TableWrite} {key : MultiLevelKey}
  {entry : DataEntry}

/-- A table among those of before and one more. -/
theorem exists_mem_concat {p : SSTable → Prop} {ts : List SSTable} {t : SSTable} :
    (∃ t' ∈ ts ++ [t], p t') ↔ (∃ t' ∈ ts, p t') ∨ p t := by
  constructor
  · rintro ⟨t', ht', hp⟩
    rcases List.mem_append.mp ht' with ht' | ht'
    · exact Or.inl ⟨t', ht', hp⟩
    · rw [List.mem_singleton.mp ht'] at hp
      exact Or.inr hp
  · rintro (⟨t', ht', hp⟩ | hp)
    · exact ⟨t', List.mem_append_left _ ht', hp⟩
    · exact ⟨t, List.mem_append_right _ (List.mem_singleton_self t), hp⟩

/-- Without anything in the memory table the flush returns at once. -/
theorem stored_iff_of_empty (hsize : e.memtable.size = 0) :
    e.Stored key entry ↔ e.SafeEntry first second key entry := by
  have hempty := List.length_eq_zero_iff.mp hsize
  constructor
  · rintro ⟨t, ht, hholds⟩
    exact Or.inr (Or.inr ⟨t, ht, fun hwrites => hwrites.1 hsize, hholds⟩)
  · rintro (⟨-, hmem⟩ | ⟨m, -, hne, -⟩ | ⟨t, ht, -, hholds⟩)
    · rw [hempty] at hmem
      exact absurd hmem List.not_mem_nil
    · exact absurd hsize hne
    · exact ⟨t, ht, hholds⟩

/-- One file is written. -/
theorem stored_iff_of_noImmutable {t : SSTable} {file : Bytes} (hsize : e.memtable.size ≠ 0)
    (himm : e.immutableMemtable = none) (hfits : Fits e.memtable.data.entries)
    (hname : t.filename = e.filenameOf second)
    (hleaves : LeavesFile second.outcome e.memtable.data.entries file)
    (htables : e'.sstables = e.sstables ++ [t])
    (hfiles : e'.dir = e.dir.insert (e.filenameOf second) file) :
    e'.Stored key entry ↔ e.SafeEntry first second key entry := by
  have hnew : FileHolds e'.dir (e.filenameOf second) key entry ↔
      second.outcome = .written ∧ (key.toString, entry) ∈ records e.memtable.data.entries := by
    apply hleaves.fileHolds_iff hfits
    rw [hfiles, SortedMap.find?_insert_self]
  have hold : ∀ name, name ≠ e.filenameOf second →
      (FileHolds e'.dir name key entry ↔ FileHolds e.dir name key entry) := by
    intro name hne
    apply fileHolds_congr
    rw [hfiles, SortedMap.find?_insert_ne _ _ (Ne.symm hne)]
  have hwrites : ∀ name, e.WritesFile first second name ↔ name = e.filenameOf second := by
    intro name
    rw [WritesFile, himm]
    simp [hsize]
  rw [Stored, htables, exists_mem_concat, hname, hnew, SafeEntry, himm]
  constructor
  · rintro (⟨t', ht', hholds⟩ | hsecond)
    · by_cases hsame : t'.filename = e.filenameOf second
      · rw [hsame, hnew] at hholds
        exact Or.inl hholds
      · exact Or.inr (Or.inr ⟨t', ht', (hwrites _).not.mpr hsame, (hold _ hsame).mp hholds⟩)
    · exact Or.inl hsecond
  · rintro (hsecond | ⟨m, hm, -⟩ | ⟨t', ht', hstays, hholds⟩)
    · exact Or.inr hsecond
    · cases hm
    · exact Or.inl ⟨t', ht', (hold _ ((hwrites _).not.mp hstays)).mpr hholds⟩

/-- Two files are written, the second one over the first where they have one name. -/
theorem stored_iff_of_immutable {m : MemTable} {t t' : SSTable} {file file' : Bytes}
    (hsize : e.memtable.size ≠ 0) (himm : e.immutableMemtable = some m)
    (hfits : Fits e.memtable.data.entries) (hfits' : Fits m.data.entries)
    (hname : t.filename = e.filenameOf first) (hname' : t'.filename = e.filenameOf second)
    (hleaves : LeavesFile first.outcome m.data.entries file)
    (hleaves' : LeavesFile second.outcome e.memtable.data.entries file')
    (htables : e'.sstables = e.sstables ++ [t] ++ [t'])
    (hfiles : e'.dir = (e.dir.insert (e.filenameOf first) file).insert
      (e.filenameOf second) file') :
    e'.Stored key entry ↔ e.SafeEntry first second key entry := by
  have hsecond : FileHolds e'.dir (e.filenameOf second) key entry ↔
      second.outcome = .written ∧ (key.toString, entry) ∈ records e.memtable.data.entries := by
    apply hleaves'.fileHolds_iff hfits
    rw [hfiles, SortedMap.find?_insert_self]
  have hfirst : e.filenameOf first ≠ e.filenameOf second →
      (FileHolds e'.dir (e.filenameOf first) key entry ↔
        first.outcome = .written ∧ (key.toString, entry) ∈ records m.data.entries) := by
    intro hne
    apply hleaves.fileHolds_iff hfits'
    rw [hfiles, SortedMap.find?_insert_ne _ _ (Ne.symm hne), SortedMap.find?_insert_self]
  have hold : ∀ name, ¬ e.WritesFile first second name →
      (FileHolds e'.dir name key entry ↔ FileHolds e.dir name key entry) := by
    intro name hstays
    rw [WritesFile, himm, not_and_or, not_or] at hstays
    obtain ⟨hne, hne'⟩ := hstays.resolve_left (not_not.mpr hsize)
    have hother : name ≠ e.filenameOf first :=
      fun heq => hne' ⟨Option.some_ne_none m, heq⟩
    apply fileHolds_congr
    rw [hfiles, SortedMap.find?_insert_ne _ _ (Ne.symm hne),
      SortedMap.find?_insert_ne _ _ (Ne.symm hother)]
  have hwritten : ∀ name, e.WritesFile first second name →
      name = e.filenameOf second ∨ name = e.filenameOf first :=
    fun name hwrites => hwrites.2.imp_right And.right
  rw [Stored, htables, exists_mem_concat, exists_mem_concat, hname, hname', hsecond, SafeEntry]
  constructor
  · rintro ((⟨table, htable, hholds⟩ | hholds) | hnew)
    · by_cases hwrites : e.WritesFile first second table.filename
      · by_cases hsame : table.filename = e.filenameOf second
        · rw [hsame, hsecond] at hholds
          exact Or.inl hholds
        · have heq := (hwritten _ hwrites).resolve_left hsame
          rw [heq] at hholds hsame
          obtain ⟨hwhole, hmem⟩ := (hfirst hsame).mp hholds
          exact Or.inr (Or.inl ⟨m, himm, hsize, hwhole, hsame, hmem⟩)
      · exact Or.inr (Or.inr ⟨table, htable, hwrites, (hold _ hwrites).mp hholds⟩)
    · by_cases hsame : e.filenameOf first = e.filenameOf second
      · rw [hsame, hsecond] at hholds
        exact Or.inl hholds
      · obtain ⟨hwhole, hmem⟩ := (hfirst hsame).mp hholds
        exact Or.inr (Or.inl ⟨m, himm, hsize, hwhole, hsame, hmem⟩)
    · exact Or.inl hnew
  · rintro (hnew | ⟨m', hm', -, hwhole, hne, hmem⟩ | ⟨table, htable, hstays, hholds⟩)
    · exact Or.inr hnew
    · rw [himm, Option.some.injEq] at hm'
      subst hm'
      exact Or.inl (Or.inr ((hfirst hne).mpr ⟨hwhole, hmem⟩))
    · exact Or.inl (Or.inl ⟨table, htable, (hold _ hstays).mpr hholds⟩)

end

/-- **What is in the tables after a successful flush**: the entries that were safe in it. -/
theorem stored_iff {e : LSMTreeEngine} {first second : TableWrite} {call : FlushingCall}
    (hfits : Fits e.memtable.data.entries)
    (hfits' : ∀ m, e.immutableMemtable = some m → Fits m.data.entries)
    (h : (e.flushing first second call).1 = .ok ()) (key : MultiLevelKey) (entry : DataEntry) :
    (e.flushing first second call).2.Stored key entry ↔ e.SafeEntry first second key entry := by
  obtain ⟨hok, hsstables, hdir⟩ := flushing_eq h
  by_cases hsize : e.memtable.size = 0
  · -- tables and files are those of before
    rw [flushMemtable_of_empty hsize] at hsstables hdir
    rw [Stored, hsstables, hdir]
    exact stored_iff_of_empty hsize
  · have hspec := flushMemtable_ok hsize hok
    rw [← hsstables, ← hdir] at hspec
    cases himm : e.immutableMemtable with
    | none =>
        rw [himm] at hspec
        obtain ⟨t, file, hname, hleaves, htables, hfiles⟩ := hspec
        exact stored_iff_of_noImmutable hsize himm hfits hname hleaves htables hfiles
    | some m =>
        rw [himm] at hspec
        obtain ⟨t, t', file, file', hname, hname', hleaves, hleaves', htables, hfiles⟩ := hspec
        exact stored_iff_of_immutable hsize himm hfits (hfits' m himm) hname hname' hleaves hleaves'
          htables hfiles

/-- **What a successful flush leaves behind.**  When `flush`, or the flush in
`close`, reports success, every entry that was in memory is in a table iff every
entry in memory was safe. -/
theorem memoryStored_iff {e : LSMTreeEngine} {first second : TableWrite} {call : FlushingCall}
    (hfits : Fits e.memtable.data.entries)
    (hfits' : ∀ m, e.immutableMemtable = some m → Fits m.data.entries)
    (h : (e.flushing first second call).1 = .ok ()) :
    (∀ key entry, e.InMemory key entry → (e.flushing first second call).2.Stored key entry) ↔
      e.MemorySafe first second :=
  forall₂_congr fun key entry => imp_congr_right fun _ => stored_iff hfits hfits' h key entry

/-- An open engine whose last flush could not open its file: the entry of key
`("a", "")` is in the immutable table, the memory table is empty. -/
def parkedEngine : LSMTreeEngine :=
  ((sampleOpened.put ⟨[97], []⟩ ⟨[1], 1, 0, false⟩).2.flush ⟨sampleTime 1, .written⟩
    ⟨sampleTime 2, .notOpened⟩).2

/-- The engine after one more `put`. -/
def refilledEngine : LSMTreeEngine := (parkedEngine.put ⟨[98], []⟩ ⟨[2], 1, 0, false⟩).2

/-- Then a flush stores both entries. -/
theorem memoryStored_parkedEngine :
    (refilledEngine.flushing ⟨sampleTime 3, .written⟩ ⟨sampleTime 4, .written⟩ .flush).2.Stored
        ⟨[97], []⟩ ⟨[1], 1, 0, false⟩ ∧
      (refilledEngine.flushing ⟨sampleTime 3, .written⟩ ⟨sampleTime 4, .written⟩ .flush).2.Stored
        ⟨[98], []⟩ ⟨[2], 1, 0, false⟩ := by
  have hall : ∀ key entry, refilledEngine.InMemory key entry →
      (refilledEngine.flushing ⟨sampleTime 3, .written⟩ ⟨sampleTime 4, .written⟩ .flush).2.Stored
        key entry := by
    refine (memoryStored_iff (by decide +kernel) ?_ (by decide +kernel)).mpr ?_
    · intro m hm
      obtain rfl := Option.some.inj hm
      decide +kernel
    · rintro key entry (hfind | ⟨m, hm, hfind⟩)
      · exact Or.inl ⟨rfl, mem_records_of_find? hfind⟩
      · exact Or.inr (Or.inl ⟨m, hm, by decide +kernel, rfl, by decide +kernel,
          mem_records_of_find? hfind⟩)
  exact ⟨hall _ _ (Or.inr ⟨_, rfl, by decide +kernel⟩), hall _ _ (Or.inl (by decide +kernel))⟩

/-- An open engine with an entry of key `("a", "")` in its memory table. -/
def filledEngine : LSMTreeEngine := (sampleOpened.put ⟨[97], []⟩ ⟨[1], 1, 0, false⟩).2

/-- A flush that follows a failed one at once reports success and stores nothing; so does
one whose file ends early because the disk is full. -/
theorem not_memoryStored_parkedEngine :
    ((parkedEngine.flushing ⟨sampleTime 3, .written⟩ ⟨sampleTime 4, .written⟩ .flush).1 = .ok () ∧
      parkedEngine.InMemory ⟨[97], []⟩ ⟨[1], 1, 0, false⟩ ∧
      ¬ (parkedEngine.flushing ⟨sampleTime 3, .written⟩ ⟨sampleTime 4, .written⟩ .flush).2.Stored
        ⟨[97], []⟩ ⟨[1], 1, 0, false⟩) ∧
    ((filledEngine.flushing ⟨sampleTime 3, .written⟩ ⟨sampleTime 4, .short 8 8⟩ .flush).1 = .ok () ∧
      filledEngine.InMemory ⟨[97], []⟩ ⟨[1], 1, 0, false⟩ ∧
      ¬ (filledEngine.flushing ⟨sampleTime 3, .written⟩ ⟨sampleTime 4, .short 8 8⟩ .flush).2.Stored
        ⟨[97], []⟩ ⟨[1], 1, 0, false⟩) := by
  refine ⟨⟨by decide +kernel, Or.inr ⟨_, rfl, by decide +kernel⟩, ?_⟩,
    ⟨by decide +kernel, Or.inl (by decide +kernel), ?_⟩⟩
  · rintro ⟨t, ht, -⟩
    have htables : (parkedEngine.flushing ⟨sampleTime 3, .written⟩ ⟨sampleTime 4, .written⟩
        .flush).2.sstables = [] := by decide +kernel
    rw [htables] at ht
    cases ht
  · rw [stored_iff (by decide +kernel) (fun m hm => by cases hm) (by decide +kernel)]
    rintro (⟨hwritten, -⟩ | ⟨m, hm, -⟩ | ⟨t, ht, -⟩)
    · cases hwritten
    · cases hm
    · cases ht

end QcDatabase.LSMTreeEngine
