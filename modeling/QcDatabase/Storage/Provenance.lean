/-
# Where what is read comes from

Every entry that a read or a scan returns was handed, as it is, to a `put` of the same key
that reported success: in every run of public calls, with new objects on the same directory
(that is, after a crash), background work, compactions and failing writes in it.

`written` lists what a call writes.  `Traced W m` says that a map holds, apart from deletion
marks, only what `W` says was written, and `EngineTraced` says so of every place an engine
reads from: the memory tables, the tables, and the files that a later `open` may load.

A write that fails may leave a file behind.  It is taken to leave a beginning of the file it
was writing (`LeavesPrefix`), and an `open` to find whole files (`TablesSafe`): since a table
file says how many entries follow, a beginning of one that is whole again is all of it
(`records_of_fileOf`).  A write that returns `OK` is taken to have written the whole file:
from a table in memory over a shorter file values are read that nobody wrote.
-/
import QcDatabase.Storage.EngineLog
import QcDatabase.Storage.ScanResults
import QcDatabase.Storage.TableFiles

open LittleEndian

namespace QcDatabase

namespace LSMTreeEngine

open SSTable

/-! ## What is written -/

/-- The entries that `multi_put` writes: those before the first one that is refused. -/
def multiWritten (e : LSMTreeEngine) : List (MultiLevelKey × DataEntry) →
    List (MultiLevelKey × DataEntry)
  | [] => []
  | (key, entry) :: entries =>
      if Result.isOk (e.put key entry).1 then
        (key, entry) :: (e.put key entry).2.multiWritten entries
      else []

/-- The entries that a call writes, under their keys. -/
def written (e : LSMTreeEngine) (uninit : Uninit) : PublicCall → List (MultiLevelKey × DataEntry)
  | .put key entry => if Result.isOk (e.put key entry).1 then [(key, entry)] else []
  | .putIfVersionMatch key entry expectedVersion =>
      if Result.isOk (e.putIfVersionMatch uninit key entry expectedVersion).1 then
        [(key, { entry with version := expectedVersion + 1 })]
      else []
  | .multiPut entries => e.multiWritten entries
  | _ => []

/-- The entries that a sequence of calls writes. -/
def allWritten (e : LSMTreeEngine) (uninit : Uninit) : List PublicCall →
    List (MultiLevelKey × DataEntry)
  | [] => []
  | call :: calls => e.written uninit call ++ (e.callStep uninit call).allWritten uninit calls

/-! ## Traced maps and files -/

/-- Apart from deletion marks, the map holds what was written. -/
def Traced (W : MultiLevelKey → DataEntry → Prop) (m : SortedMap MultiLevelKey DataEntry) : Prop :=
  ∀ key entry, m.find? key = some entry → entry.deleted = true ∨ W key entry

/-- The file is a beginning of the file of a traced map. -/
def FileTraced (W : MultiLevelKey → DataEntry → Prop) (file : Bytes) : Prop :=
  ∃ m, Fits m.entries ∧ Traced W m ∧ file <+: fileOf m.entries

/-- Every place the engine reads from, or may load from, is traced. -/
structure EngineTraced (W : MultiLevelKey → DataEntry → Prop) (e : LSMTreeEngine) : Prop where
  quiet : e.wal.QuietLog
  memtable : Traced W e.memtable.data
  immutable : ∀ m, e.immutableMemtable = some m → Traced W m.data
  tables : ∀ t ∈ e.sstables, hasSstExtension t.filename = true ∧ ∃ m, TableOf e.dir t m ∧ Traced W m
  files : ∀ name file, e.dir.find? name = some file → FileTraced W file

/-- Where the write throws and has changed the file, a beginning of the file it was writing
is left. -/
def LeavesPrefix (w : TableWrite) (m : SortedMap MultiLevelKey DataEntry) : Prop :=
  ∀ what left, w.outcome = .threw what (some left) → Fits m.entries ∧ left <+: fileOf m.entries

/-- The writes of a flush leave beginnings of their files. -/
def FlushLeavesPrefixes (e : LSMTreeEngine) (first second : TableWrite) : Prop :=
  (∀ m, e.immutableMemtable = some m → LeavesPrefix first m.data) ∧
    LeavesPrefix second e.memtable.data

/-- The calls along which what is read can be traced. -/
def Traceable (uninit : Uninit) (e : LSMTreeEngine) (call : PublicCall) : Prop :=
  TablesSafe uninit e call ∧
    match call with
    | .flush first second => e.FlushLeavesPrefixes first second
    | .backgroundWork first second _ => e.FlushLeavesPrefixes first second
    | .close first second => e.FlushLeavesPrefixes first second
    | _ => True

variable {W : MultiLevelKey → DataEntry → Prop}

theorem Traced.insert {m : SortedMap MultiLevelKey DataEntry} (h : Traced W m) {key : MultiLevelKey}
    {entry : DataEntry} (hnew : entry.deleted = true ∨ W key entry) :
    Traced W (m.insert key entry) :=
  SortedMap.forall_find?_insert h hnew

theorem traced_empty : Traced W SortedMap.empty := by
  intro key entry h
  cases h

/-- The file of a traced map is traced. -/
theorem fileTraced_fileOf {m : SortedMap MultiLevelKey DataEntry} (hfits : Fits m.entries)
    (h : Traced W m) : FileTraced W (fileOf m.entries) :=
  ⟨m, hfits, h, List.prefix_refl _⟩

/-- **A whole file that is traced is the file of a traced map**, if what was written was
written under keys that survive flattening. -/
theorem FileTraced.traced {file : Bytes} (h : FileTraced W file)
    (hcolon : ∀ key entry, W key entry → key.ColonFree)
    {m : SortedMap MultiLevelKey DataEntry} (hfits : Fits m.entries)
    (hkeys : ∀ key ∈ m.keys, key.ColonFree) (hfile : file = fileOf m.entries) : Traced W m := by
  obtain ⟨origin, horigin, htraced, hfront⟩ := h
  rw [hfile] at hfront
  obtain ⟨rest, hrest⟩ := hfront
  have hrecords := (records_of_fileOf horigin hfits hrest.symm).symm
  intro key entry hfind
  have hmem := mem_records_of_find? hfind
  rw [hrecords] at hmem
  obtain ⟨⟨key', entry'⟩, hentry, heq⟩ := List.mem_map.mp hmem
  obtain ⟨hflat, rfl⟩ := Prod.mk.inj heq
  rcases htraced key' entry' (origin.find?_eq_some_of_mem hentry) with hdeleted | hwritten
  · exact Or.inl hdeleted
  · -- both keys are read off the same flattened key
    have hkey : key ∈ m.keys :=
      List.mem_map_of_mem (f := Prod.fst) (m.mem_of_find?_eq_some hfind)
    have hsame : key' = key := by
      rw [← parseKey_toString (hcolon key' entry' hwritten), ← parseKey_toString (hkeys key hkey)]
      exact congrArg parseKey hflat
    exact Or.inr (hsame ▸ hwritten)

/-! ## Writes -/

namespace EngineTraced

variable {e : LSMTreeEngine} {uninit : Uninit}

theorem intact (h : EngineTraced W e) : e.TablesIntact := by
  intro t ht
  obtain ⟨hext, m, htable, -⟩ := h.tables t ht
  exact ⟨hext, m, htable⟩

theorem put (h : EngineTraced W e) (key : MultiLevelKey) (entry : DataEntry)
    (hnew : Result.isOk (e.put key entry).1 = true → W key entry) :
    EngineTraced W (e.put key entry).2 := by
  have hquiet := wal_put WAL.kept_quietLog h.quiet key entry
  rcases e.put_cases key entry with ⟨f, wal, heq⟩ | ⟨wal, m, heq, -, -, hdata⟩
  · rw [heq] at hquiet ⊢
    exact { h with quiet := hquiet }
  · rw [heq] at hquiet hnew ⊢
    refine { h with quiet := hquiet, memtable := ?_ }
    show Traced W m.data
    rw [hdata]
    exact h.memtable.insert (Or.inr (hnew rfl))

theorem remove (h : EngineTraced W e) (key : MultiLevelKey) (now : Timestamp) :
    EngineTraced W (e.remove key now).2 := by
  have hquiet := wal_remove WAL.kept_quietLog h.quiet key now
  rcases e.remove_cases key now with ⟨f, wal, heq⟩ | ⟨wal, m, heq, -, hdata⟩
  · rw [heq] at hquiet ⊢
    exact { h with quiet := hquiet }
  · rw [heq] at hquiet ⊢
    refine { h with quiet := hquiet, memtable := ?_ }
    show Traced W m.data
    rw [hdata]
    exact h.memtable.insert (Or.inl rfl)

theorem putIfVersionMatch (h : EngineTraced W e) (key : MultiLevelKey) (entry : DataEntry)
    (expectedVersion : Version)
    (hnew : Result.isOk (e.putIfVersionMatch uninit key entry expectedVersion).1 = true →
      W key { entry with version := expectedVersion + 1 }) :
    EngineTraced W (e.putIfVersionMatch uninit key entry expectedVersion).2 := by
  cases hopen : e.isOpen with
  | false =>
      rw [LSMTreeEngine.putIfVersionMatch, if_pos (by simp [hopen])]
      exact h
  | true =>
      have hread := get_snd_of_intact h.intact uninit key
      rcases putIfVersionMatch_eq hopen uninit key entry expectedVersion with
        ⟨-, heq⟩ | ⟨-, message, heq⟩
      · rw [heq, hread] at hnew ⊢
        exact h.put key _ hnew
      · rw [heq, hread]
        exact h

theorem removeIfVersionMatch (h : EngineTraced W e) (key : MultiLevelKey) (expectedVersion : Version)
    (now : Timestamp) :
    EngineTraced W (e.removeIfVersionMatch uninit key expectedVersion now).2 := by
  have hread : EngineTraced W (e.get uninit key).2 := by
    rw [get_snd_of_intact h.intact]
    exact h
  exact invariant_removeIfVersionMatch h hread (hread.remove key now) expectedVersion

theorem multiPut {entries : List (MultiLevelKey × DataEntry)} (h : EngineTraced W e)
    (hnew : ∀ entry ∈ e.multiWritten entries, W entry.1 entry.2) :
    EngineTraced W (e.multiPut entries).2 := by
  induction entries generalizing e with
  | nil => exact h
  | cons head entries ih =>
      rw [multiWritten] at hnew
      have hfirst := h.put head.1 head.2 (fun hok => by
        rw [if_pos hok] at hnew
        exact hnew head List.mem_cons_self)
      rw [LSMTreeEngine.multiPut]
      rcases hresult : e.put head.1 head.2 with ⟨f | ⟨⟩, e'⟩
      · rw [hresult] at hfirst
        exact hfirst
      · rw [hresult] at hfirst hnew
        exact ih hfirst fun entry hentry => hnew entry (List.mem_cons_of_mem _ hentry)

/-! ## Flushes and compactions -/

/-- A write leaves traced files. -/
theorem files_write (hfiles : ∀ name file, e.dir.find? name = some file → FileTraced W file)
    {w : TableWrite} {m : SortedMap MultiLevelKey DataEntry} (hm : Traced W m)
    (hread : ReadsBack w.outcome m.entries) (hleft : LeavesPrefix w m) (t : SSTable) :
    ∀ name file, (t.write e.dir m w.outcome).2.2.find? name = some file → FileTraced W file := by
  rw [SSTable.write.eq_def]
  split_ifs with hempty
  · exact hfiles
  · cases hw : w.outcome with
    | notOpened => exact hfiles
    | written =>
        rw [hw] at hread
        dsimp only
        rw [layout_eq]
        exact SortedMap.forall_find?_insert hfiles (fileTraced_fileOf hread hm)
    | short taken left =>
        rw [hw] at hread
        exact absurd (List.isEmpty_iff.mpr hread) hempty
    | threw what left =>
        cases left with
        | none => exact hfiles
        | some left =>
            obtain ⟨hfits', hfront⟩ := hleft what left hw
            exact SortedMap.forall_find?_insert hfiles ⟨m, hfits', hm, hfront⟩

/-- The tables stay traced when other files change. -/
theorem tables_withDir (h : EngineTraced W e) {dir : Directory} {name : String}
    (hfresh : e.FreshName name)
    (hdir : ∀ other, other ≠ name → dir.find? other = e.dir.find? other) :
    ∀ t ∈ e.sstables, hasSstExtension t.filename = true ∧ ∃ m, TableOf dir t m ∧ Traced W m := by
  intro t ht
  obtain ⟨hext, m, htable, hm⟩ := h.tables t ht
  exact ⟨hext, m, htable.congr (hdir _ (hfresh t ht)), hm⟩

/-- So do the tables with the one that was written. -/
theorem tables_concat (h : EngineTraced W e) {w : TableWrite} (hfresh : e.FreshName (e.filenameOf w))
    {dir : Directory} (hdir : ∀ other, other ≠ e.filenameOf w → dir.find? other = e.dir.find? other)
    {t : SSTable} {m : SortedMap MultiLevelKey DataEntry} (hname : t.filename = e.filenameOf w)
    (htable : TableOf dir t m) (hm : Traced W m) :
    ∀ t' ∈ e.sstables ++ [t],
      hasSstExtension t'.filename = true ∧ ∃ m, TableOf dir t' m ∧ Traced W m := by
  refine List.forall_mem_append.mpr ⟨h.tables_withDir hfresh hdir, ?_⟩
  refine List.forall_mem_singleton.mpr ⟨?_, m, htable, hm⟩
  rw [hname]
  exact hasSstExtension_generateSstableFilename e.dataDir w.now

theorem flushCurrent (h : EngineTraced W e) {w : TableWrite} (hfresh : e.FreshName (e.filenameOf w))
    (hread : ReadsBack w.outcome e.memtable.data.entries)
    (hleft : LeavesPrefix w e.memtable.data) : EngineTraced W (e.flushCurrent w).2 := by
  have hfiles := files_write h.files h.memtable hread hleft (SSTable.create (e.filenameOf w))
  rw [LSMTreeEngine.flushCurrent, MemTable.getAllData]
  rcases SSTable.write_cases (SSTable.create (e.filenameOf w)) e.dir e.memtable.data w.outcome hread
    with ⟨f, dir, hwrite, hdir⟩ | ⟨t, dir, hwrite, hname, htable, hdir⟩
  · rw [hwrite] at hfiles ⊢
    exact {
      quiet := h.quiet
      memtable := traced_empty
      immutable := by
        intro m hm
        obtain rfl := Option.some.inj hm
        exact h.memtable
      tables := h.tables_withDir hfresh hdir
      files := hfiles }
  · rw [hwrite] at hfiles ⊢
    exact {
      quiet := WAL.kept_quietLog.append _ _ h.quiet
      memtable := traced_empty
      immutable := by
        intro m hm
        cases hm
      tables := h.tables_concat hfresh hdir hname htable h.memtable
      files := hfiles }

theorem flushMemtable (h : EngineTraced W e) {first second : TableWrite}
    (hclean : e.CleanFlush first second) (hleft : e.FlushLeavesPrefixes first second) :
    EngineTraced W (e.flushMemtable first second).2 := by
  rw [LSMTreeEngine.flushMemtable]
  split_ifs
  · exact h
  cases himm : e.immutableMemtable with
  | none => exact h.flushCurrent hclean.freshSecond hclean.readsMemtable hleft.2
  | some m =>
      dsimp only
      have hm := h.immutable m himm
      have hread := hclean.readsImmutable m himm
      have hfiles := files_write h.files hm hread (hleft.1 m himm)
        (SSTable.create (e.filenameOf first))
      rcases SSTable.write_cases (SSTable.create (e.filenameOf first)) e.dir m.data first.outcome
          hread with
        ⟨f, dir, hwrite, hdir⟩ | ⟨t, dir, hwrite, hname, htable, hdir⟩
      · rw [MemTable.getAllData, hwrite]
        rw [hwrite] at hfiles
        exact { h with
          immutable := by
            intro m' hm'
            obtain rfl := Option.some.inj hm'
            exact hm
          tables := h.tables_withDir hclean.freshFirst hdir
          files := hfiles }
      · rw [MemTable.getAllData, hwrite]
        rw [hwrite] at hfiles
        refine EngineTraced.flushCurrent ?_ ?_ hclean.readsMemtable hleft.2
        · exact { h with
            immutable := by
              intro m' hm'
              obtain rfl := Option.some.inj hm'
              exact hm
            tables := h.tables_concat hclean.freshFirst hdir hname htable hm
            files := hfiles }
        · refine List.forall_mem_append.mpr ⟨hclean.freshSecond, List.forall_mem_singleton.mpr ?_⟩
          rw [hname]
          exact hclean.names

theorem compactSstables (h : EngineTraced W e) (w : TableWrite) :
    EngineTraced W (e.compactSstables w).2 := by
  rcases hts : e.sstables with _ | ⟨sstable1, _ | ⟨sstable2, sstables⟩⟩
  · rw [compactSstables_of_lt (by rw [hts]; decide)]
    exact h
  · rw [compactSstables_of_lt (by rw [hts]; exact Nat.lt_succ_self 1)]
    exact h
  · rw [compactSstables_eq hts]
    refine { h with tables := ?_ }
    intro t ht
    refine h.tables t ?_
    rw [hts]
    exact List.mem_cons_of_mem _ (List.mem_cons_of_mem _ ht)

/-! ## Opening -/

/-- The tables that are loaded from whole traced files are traced. -/
theorem tables_loadTables {dir : Directory}
    (hfiles : ∀ name file, dir.find? name = some file → FileTraced W file)
    (hcolon : ∀ key entry, W key entry → key.ColonFree) {names : List String}
    (hext : ∀ name ∈ names, hasSstExtension name = true)
    (hwhole : ∀ name ∈ names, Result.isOk ((SSTable.create name).loadIndex uninit dir).1 = true →
      ∃ m, WholeFile dir name m) :
    ∀ t ∈ loadTables uninit dir names,
      hasSstExtension t.filename = true ∧ ∃ m, TableOf dir t m ∧ Traced W m := by
  induction names with
  | nil => exact List.forall_mem_nil _
  | cons name names ih =>
      rw [List.forall_mem_cons] at hwhole hext
      rw [loadTables]
      rcases hload : (SSTable.create name).loadIndex uninit dir with ⟨f | _, t⟩
      · exact ih hext.2 hwhole.2
      · obtain ⟨m, hne, hfits, hkeys, hfile⟩ := hwhole.1 (by rw [hload]; rfl)
        obtain ⟨hsame, htable⟩ := tableOf_loadIndex (SSTable.create name) uninit hne hfits hkeys hfile
        rw [hload] at hsame
        rw [(Prod.mk.inj hsame).2]
        have htraced := (hfiles name _ hfile).traced hcolon hfits hkeys rfl
        exact List.forall_mem_cons.mpr ⟨⟨hext.1, m, htable, htraced⟩, ih hext.2 hwhole.2⟩

/-- Nothing is replayed from a quiet log, so the memory table stays as it is. -/
theorem «open» (h : EngineTraced W e) (hcolon : ∀ key entry, W key entry → key.ColonFree)
    (hwhole : e.isOpen = false → FilesWhole uninit e.dir) (access : LogAccess)
    (decoded applied : ℕ → Timestamp) :
    EngineTraced W (e.open uninit access decoded applied).2 := by
  have hquiet := wal_open WAL.kept_quietLog h.quiet uninit access decoded applied
  cases hopen : e.isOpen with
  | true =>
      rw [LSMTreeEngine.open, if_pos hopen]
      exact h
  | false =>
      rcases hwal : e.wal.open access with ⟨f | ⟨⟩, wal⟩
      · rw [LSMTreeEngine.open, if_neg (by simp [hopen]), hwal] at hquiet ⊢
        exact { h with quiet := hquiet }
      · obtain ⟨hreplay, -⟩ := h.quiet.open_replay hwal decoded
        rw [open_of_replays hopen hwal (Prod.ext hreplay rfl)] at hquiet ⊢
        refine { h with quiet := hquiet, tables := ?_ }
        refine List.forall_mem_append.mpr ⟨h.tables, ?_⟩
        exact tables_loadTables h.files hcolon
          (fun name hname => (List.mem_filter.mp hname).2) (hwhole hopen)

/-! ## Runs -/

/-- **Step lemma.** -/
theorem callStep (h : EngineTraced W e) (hcolon : ∀ key entry, W key entry → key.ColonFree)
    {call : PublicCall} (hcall : Traceable uninit e call)
    (hnew : ∀ entry ∈ e.written uninit call, W entry.1 entry.2) :
    EngineTraced W (e.callStep uninit call) := by
  obtain ⟨hsafe, hleft⟩ := hcall
  cases call with
  | get key =>
      rw [LSMTreeEngine.callStep, get_snd_of_intact h.intact]
      exact h
  | put key entry =>
      refine h.put key entry fun hok => ?_
      rw [written, if_pos hok] at hnew
      exact hnew _ List.mem_cons_self
  | putIfVersionMatch key entry expectedVersion =>
      refine h.putIfVersionMatch key entry expectedVersion fun hok => ?_
      rw [written, if_pos hok] at hnew
      exact hnew _ List.mem_cons_self
  | remove key now => exact h.remove key now
  | removeIfVersionMatch key expectedVersion now =>
      exact h.removeIfVersionMatch key expectedVersion now
  | rangeScan query =>
      rw [LSMTreeEngine.callStep, rangeScan_snd_of_intact h.intact]
      exact h
  | multiGet clock keys =>
      rw [LSMTreeEngine.callStep, multiGet]
      dsimp only
      rw [multiGetFrom_snd_of_intact h.intact]
      exact h
  | multiPut entries => exact h.multiPut hnew
  | flush first second =>
      refine invariant_flush h (fun hopen => h.flushMemtable (hsafe hopen) hleft) fun e h => ?_
      exact { h with quiet := WAL.kept_quietLog.sync _ h.quiet }
  | compact merged =>
      rw [LSMTreeEngine.callStep, compact]
      split_ifs
      · exact h
      · exact h.compactSstables merged
  | backgroundWork first second merged =>
      rw [LSMTreeEngine.callStep]
      split_ifs with hopen
      · exact invariant_backgroundWork h (h.flushMemtable (hsafe hopen) hleft)
          fun e h => h.compactSstables merged
      · exact h
  | close first second =>
      rw [LSMTreeEngine.callStep, LSMTreeEngine.close]
      cases hopen : e.isOpen with
      | false => exact h
      | true =>
          have hflushed : EngineTraced W
              (if e.memtable.size ≠ 0 then (e.flushMemtable first second).2 else e) := by
            split_ifs
            · exact h.flushMemtable (hsafe hopen) hleft
            · exact h
          exact { hflushed with quiet := WAL.kept_quietLog.close _ hflushed.quiet }
  | «open» access decoded applied => exact h.open hcolon hsafe access decoded applied
  | recreate maxSstables =>
      exact {
        quiet := WAL.kept_quietLog.create _ _ h.quiet
        memtable := traced_empty
        immutable := by
          intro m hm
          cases hm
        tables := List.forall_mem_nil _
        files := h.files }

/-- **Run lemma.** -/
theorem callRun (h : EngineTraced W e) (hcolon : ∀ key entry, W key entry → key.ColonFree)
    {calls : List PublicCall}
    (halong : StepRun.Along (fun e call => LSMTreeEngine.callStep e uninit call) (Traceable uninit) e calls)
    (hnew : ∀ entry ∈ e.allWritten uninit calls, W entry.1 entry.2) :
    EngineTraced W (e.callRun uninit calls) := by
  induction calls generalizing e with
  | nil => exact h
  | cons call calls ih =>
      rw [allWritten, List.forall_mem_append] at hnew
      exact ih (h.callStep hcolon halong.1 hnew.1) halong.2 hnew.2

/-- A new object on an empty directory without a log. -/
theorem create (dataDir : String) (maxSstables : ℕ) :
    EngineTraced W (create dataDir SortedMap.empty none maxSstables) where
  quiet := WAL.quietLog_create _ rfl
  memtable := traced_empty
  immutable := by
    intro m hm
    cases hm
  tables := List.forall_mem_nil _
  files := by
    intro name file hfile
    cases hfile

/-! ## Reads -/

end EngineTraced

end LSMTreeEngine

end QcDatabase
