/-
# Tables whose files are their own

A table object is intact when it has the name of a table file, and this file is the
one written for the map that its index lists (`SSTable.TableOf`).  Every call keeps the
tables of an engine intact as long as a flush takes fresh file names and what an `open`
loads is the whole file of a table with keys that survive flattening (`TablesSafe`,
`ReachedSafely.intact`).

Such an engine is a list of maps (`HasLevels`): a read asks them for the key, a
scan walks over each of them, and neither changes the engine.
-/
import Mathlib.Algebra.Order.BigOperators.Group.List
import QcDatabase.Lib.StepRuns
import QcDatabase.Storage.Compaction
import QcDatabase.Storage.PublicCalls
import QcDatabase.Storage.Refinement

namespace QcDatabase

namespace SSTable

/-- A table depends on its own file only. -/
theorem TableOf.congr {dir dir' : Directory} {t : SSTable} {m : SortedMap MultiLevelKey DataEntry}
    (h : TableOf dir t m) (hfile : dir'.find? t.filename = dir.find? t.filename) :
    TableOf dir' t m :=
  ⟨h.fits, h.nonempty, hfile.trans h.file, h.index⟩

/-- The file under a name is the whole file of a map whose keys survive flattening. -/
def WholeFile (dir : Directory) (name : String) (m : SortedMap MultiLevelKey DataEntry) : Prop :=
  m.entries ≠ [] ∧ Fits m.entries ∧ (∀ key ∈ m.keys, key.ColonFree) ∧
    dir.find? name = some (fileOf m.entries)

end SSTable

namespace LSMTreeEngine

open SSTable

/-- The table has the name of a table file, and this file is its own. -/
structure Intact (dir : Directory) (t : SSTable) : Prop where
  extension : hasSstExtension t.filename = true
  tableOf : ∃ m, TableOf dir t m

/-- Every table of the engine is intact. -/
def TablesIntact (e : LSMTreeEngine) : Prop := ∀ t ∈ e.sstables, Intact e.dir t

/-! ## Reads -/

/-- Reading leaves intact tables as they are. -/
theorem RereadAll.eq_of_intact {uninit : Uninit} {dir : Directory} {ts ts' : List SSTable}
    (h : RereadAll uninit dir ts ts') (hintact : ∀ t ∈ ts, Intact dir t) : ts' = ts := by
  induction h with
  | nil => rfl
  | cons ht _ ih =>
      rw [List.forall_mem_cons] at hintact
      obtain ⟨⟨-, m, hm⟩, hrest⟩ := hintact
      rw [ih hrest]
      rcases ht with rfl | rfl
      · rfl
      · -- its index is in memory, so there was nothing to load
        rw [hm.ensureIndex_eq]

theorem get_snd_of_intact {e : LSMTreeEngine} (h : e.TablesIntact) (uninit : Uninit)
    (key : MultiLevelKey) : (e.get uninit key).2 = e := by
  obtain ⟨ts, hget, hreread⟩ := e.get_frame uninit key
  rw [hget, hreread.eq_of_intact h]
  rfl

theorem rangeScan_snd_of_intact {e : LSMTreeEngine} (h : e.TablesIntact) (uninit : Uninit)
    (query : RangeQuery) : (e.rangeScan uninit query).2 = e := by
  obtain ⟨ts, hscan, hreread⟩ := e.rangeScan_frame uninit query
  rw [hscan, hreread.eq_of_intact h]
  rfl

theorem multiGetFrom_snd_of_intact {e : LSMTreeEngine} (h : e.TablesIntact) (uninit : Uninit)
    (clock : ℕ → Timestamp) (i : ℕ) (keys : List MultiLevelKey) :
    (e.multiGetFrom uninit clock i keys).2 = e := by
  refine invariant_multiGetFrom (P := fun e' => e' = e) ?_ rfl clock i keys
  rintro _ key rfl
  exact get_snd_of_intact h uninit key

/-! ## Writes and flushes -/

theorem TablesIntact.put {e : LSMTreeEngine} (h : e.TablesIntact) (key : MultiLevelKey)
    (entry : DataEntry) : (e.put key entry).2.TablesIntact := by
  rcases e.put_cases key entry with ⟨f, wal, heq⟩ | ⟨wal, m, heq, -⟩
  · rw [heq]
    exact h
  · rw [heq]
    exact h

theorem TablesIntact.remove {e : LSMTreeEngine} (h : e.TablesIntact) (key : MultiLevelKey)
    (now : Timestamp) : (e.remove key now).2.TablesIntact := by
  rcases e.remove_cases key now with ⟨f, wal, heq⟩ | ⟨wal, m, heq, -⟩
  · rw [heq]
    exact h
  · rw [heq]
    exact h

theorem TablesIntact.multiPut {e : LSMTreeEngine} (h : e.TablesIntact)
    (entries : List (MultiLevelKey × DataEntry)) : (e.multiPut entries).2.TablesIntact :=
  invariant_multiPut (fun _ entry _ he => he.put entry.1 entry.2) h

/-- The tables stay intact when other files change. -/
theorem TablesIntact.withDir {e : LSMTreeEngine} (h : e.TablesIntact) {dir : Directory}
    {name : String} (hfresh : e.FreshName name)
    (hdir : ∀ other, other ≠ name → dir.find? other = e.dir.find? other) :
    ∀ t ∈ e.sstables, Intact dir t := by
  intro t ht
  obtain ⟨hext, m, hm⟩ := h t ht
  exact ⟨hext, m, hm.congr (hdir _ (hfresh t ht))⟩

theorem TablesIntact.flushCurrent {e : LSMTreeEngine} (h : e.TablesIntact) {w : TableWrite}
    (hfresh : e.FreshName (e.filenameOf w))
    (hread : ReadsBack w.outcome e.memtable.data.entries) :
    (e.flushCurrent w).2.TablesIntact := by
  rcases SSTable.write_cases (SSTable.create (e.filenameOf w)) e.dir e.memtable.data w.outcome hread with
    ⟨f, dir, hwrite, hdir⟩ | ⟨t, dir, hwrite, hname, htable, hdir⟩
  · rw [LSMTreeEngine.flushCurrent, MemTable.getAllData, hwrite]
    exact h.withDir hfresh hdir
  · rw [LSMTreeEngine.flushCurrent, MemTable.getAllData, hwrite]
    refine List.forall_mem_append.mpr ⟨h.withDir hfresh hdir, ?_⟩
    refine List.forall_mem_singleton.mpr ⟨?_, _, htable⟩
    rw [hname]
    exact hasSstExtension_generateSstableFilename e.dataDir w.now

theorem TablesIntact.flushMemtable {e : LSMTreeEngine} (h : e.TablesIntact)
    {first second : TableWrite} (hclean : e.CleanFlush first second) :
    (e.flushMemtable first second).2.TablesIntact := by
  rw [LSMTreeEngine.flushMemtable]
  split_ifs
  · exact h
  cases himm : e.immutableMemtable with
  | none => exact h.flushCurrent hclean.freshSecond hclean.readsMemtable
  | some m =>
      dsimp only
      rcases SSTable.write_cases (SSTable.create (e.filenameOf first)) e.dir m.data first.outcome
          (hclean.readsImmutable m himm) with
        ⟨f, dir, hwrite, hdir⟩ | ⟨t, dir, hwrite, hname, htable, hdir⟩
      · rw [MemTable.getAllData, hwrite]
        exact h.withDir hclean.freshFirst hdir
      · -- the second write finds the first table in the list and must not take its name
        rw [MemTable.getAllData, hwrite]
        refine TablesIntact.flushCurrent ?_ ?_ hclean.readsMemtable
        · refine List.forall_mem_append.mpr ⟨h.withDir hclean.freshFirst hdir, ?_⟩
          refine List.forall_mem_singleton.mpr ⟨?_, _, htable⟩
          rw [hname]
          exact hasSstExtension_generateSstableFilename e.dataDir first.now
        · refine List.forall_mem_append.mpr ⟨hclean.freshSecond, List.forall_mem_singleton.mpr ?_⟩
          rw [hname]
          exact hclean.names

theorem TablesIntact.compactSstables {e : LSMTreeEngine} (h : e.TablesIntact) (w : TableWrite) :
    (e.compactSstables w).2.TablesIntact := by
  rcases hts : e.sstables with _ | ⟨sstable1, _ | ⟨sstable2, sstables⟩⟩
  · rw [compactSstables_of_lt (by rw [hts]; decide)]
    exact h
  · rw [compactSstables_of_lt (by rw [hts]; exact Nat.lt_succ_self 1)]
    exact h
  · -- the merged table is never written, so the older two are only dropped
    rw [compactSstables_eq hts]
    intro t ht
    refine h t ?_
    rw [hts]
    exact List.mem_cons_of_mem _ (List.mem_cons_of_mem _ ht)

/-! ## Opening -/

/-- Every file with the extension of a table that `load_index` accepts is whole. -/
def FilesWhole (uninit : Uninit) (dir : Directory) : Prop :=
  ∀ name ∈ dir.keys.filter hasSstExtension,
    Result.isOk ((SSTable.create name).loadIndex uninit dir).1 = true → ∃ m, WholeFile dir name m

theorem intact_loadTables {uninit : Uninit} {dir : Directory} {names : List String}
    (hext : ∀ name ∈ names, hasSstExtension name = true)
    (h : ∀ name ∈ names, Result.isOk ((SSTable.create name).loadIndex uninit dir).1 = true →
      ∃ m, WholeFile dir name m) :
    ∀ t ∈ loadTables uninit dir names, Intact dir t := by
  induction names with
  | nil => exact List.forall_mem_nil _
  | cons name names ih =>
      rw [List.forall_mem_cons] at h hext
      rw [loadTables]
      rcases hload : (SSTable.create name).loadIndex uninit dir with ⟨f | _, t⟩
      · exact ih hext.2 h.2
      · obtain ⟨m, hne, hfits, hcolon, hfile⟩ := h.1 (by rw [hload]; rfl)
        obtain ⟨hsame, htable⟩ := tableOf_loadIndex (SSTable.create name) uninit hne hfits hcolon hfile
        rw [hload] at hsame
        rw [(Prod.mk.inj hsame).2]
        exact List.forall_mem_cons.mpr ⟨⟨hext.1, m, htable⟩, ih hext.2 h.2⟩

theorem TablesIntact.open {e : LSMTreeEngine} (h : e.TablesIntact) {uninit : Uninit}
    (hwhole : e.isOpen = false → FilesWhole uninit e.dir) (access : LogAccess)
    (decoded applied : ℕ → Timestamp) :
    (e.open uninit access decoded applied).2.TablesIntact := by
  rcases e.open_cases uninit access decoded applied with ⟨r, wal, heq⟩ | ⟨wal, m, hclosed, heq⟩
  · rw [heq]
    exact h
  · rw [heq]
    refine List.forall_mem_append.mpr ⟨h, intact_loadTables ?_ (hwhole hclosed)⟩
    exact fun name hname => (List.mem_filter.mp hname).2

/-! ## Runs -/

/-- Flushes take fresh file names, and an `open` finds whole files. -/
def TablesSafe (uninit : Uninit) (e : LSMTreeEngine) : PublicCall → Prop
  | .flush first second => e.isOpen = true → e.CleanFlush first second
  | .backgroundWork first second _ => e.isOpen = true → e.CleanFlush first second
  | .close first second => e.isOpen = true → e.CleanFlush first second
  | .open _ _ _ => e.isOpen = false → FilesWhole uninit e.dir
  | _ => True

/-- **Step lemma.**  Such a call keeps the tables intact. -/
theorem TablesIntact.callStep {e : LSMTreeEngine} (h : e.TablesIntact) {uninit : Uninit}
    {call : PublicCall} (hcall : TablesSafe uninit e call) :
    (e.callStep uninit call).TablesIntact := by
  cases call with
  | get key =>
      rw [LSMTreeEngine.callStep, get_snd_of_intact h]
      exact h
  | put key entry => exact h.put key entry
  | putIfVersionMatch key entry expectedVersion =>
      have hread : (e.get uninit key).2.TablesIntact := by
        rw [get_snd_of_intact h]
        exact h
      exact invariant_putIfVersionMatch h hread (fun entry => hread.put key entry) entry
        expectedVersion
  | remove key now => exact h.remove key now
  | removeIfVersionMatch key expectedVersion now =>
      have hread : (e.get uninit key).2.TablesIntact := by
        rw [get_snd_of_intact h]
        exact h
      exact invariant_removeIfVersionMatch h hread (hread.remove key now) expectedVersion
  | rangeScan query =>
      rw [LSMTreeEngine.callStep, rangeScan_snd_of_intact h]
      exact h
  | multiGet clock keys =>
      rw [LSMTreeEngine.callStep, multiGet]
      dsimp only
      rw [multiGetFrom_snd_of_intact h]
      exact h
  | multiPut entries => exact h.multiPut entries
  | flush first second =>
      exact invariant_flush h (fun hopen => h.flushMemtable (hcall hopen)) fun _ h => h
  | compact merged =>
      rw [LSMTreeEngine.callStep, compact]
      split_ifs
      · exact h
      · exact h.compactSstables merged
  | backgroundWork first second merged =>
      rw [LSMTreeEngine.callStep]
      split_ifs with hopen
      · exact invariant_backgroundWork h (h.flushMemtable (hcall hopen))
          fun e h => h.compactSstables merged
      · exact h
  | close first second =>
      rw [LSMTreeEngine.callStep, LSMTreeEngine.close]
      cases hopen : e.isOpen with
      | false => exact h
      | true =>
          rw [if_neg (by simp)]
          dsimp only
          split_ifs
          · exact h.flushMemtable (hcall hopen)
          · exact h
  | «open» access decoded applied => exact h.open hcall access decoded applied
  | recreate maxSstables => exact List.forall_mem_nil _

/-- An engine object after calls that keep its tables intact, on any data directory. -/
def ReachedSafely (uninit : Uninit) (e : LSMTreeEngine) : Prop :=
  ∃ dataDir dir log maxSstables calls,
    StepRun.Along (fun e call => callStep e uninit call) (TablesSafe uninit)
        (create dataDir dir log maxSstables) calls ∧
      e = (create dataDir dir log maxSstables).callRun uninit calls

/-- **Run lemma.** -/
theorem ReachedSafely.intact {uninit : Uninit} {e : LSMTreeEngine} (h : ReachedSafely uninit e) :
    e.TablesIntact := by
  obtain ⟨dataDir, dir, log, maxSstables, calls, halong, rfl⟩ := h
  refine halong.invariant TablesIntact (fun e call hintact hcall => hintact.callStep hcall) ?_
  exact List.forall_mem_nil _

/-! ## The engine as a list of maps -/

/-- The maps of the levels, newest first. -/
def HasLevels (e : LSMTreeEngine) (levels : List (SortedMap MultiLevelKey DataEntry)) : Prop :=
  ∃ ms, List.Forall₂ (TableOf e.dir) e.sstables ms ∧
    levels = e.memtable.data :: (e.immutableMemtable.toList.map MemTable.data ++ ms.reverse)

theorem exists_forall₂_tableOf {dir : Directory} {ts : List SSTable}
    (h : ∀ t ∈ ts, Intact dir t) : ∃ ms, List.Forall₂ (TableOf dir) ts ms := by
  induction ts with
  | nil => exact ⟨[], List.Forall₂.nil⟩
  | cons t ts ih =>
      rw [List.forall_mem_cons] at h
      obtain ⟨m, hm⟩ := h.1.tableOf
      obtain ⟨ms, hms⟩ := ih h.2
      exact ⟨m :: ms, List.Forall₂.cons hm hms⟩

theorem TablesIntact.exists_hasLevels {e : LSMTreeEngine} (h : e.TablesIntact) :
    ∃ levels, e.HasLevels levels := by
  obtain ⟨ms, hms⟩ := exists_forall₂_tableOf h
  exact ⟨_, ms, hms, rfl⟩

/-- What depends on the map of a table only. -/
theorem map_of_forall₂ {β : Type} {dir : Directory} {ts : List SSTable}
    {ms : List (SortedMap MultiLevelKey DataEntry)} (h : List.Forall₂ (TableOf dir) ts ms)
    {f : SSTable → β} {g : SortedMap MultiLevelKey DataEntry → β}
    (hfg : ∀ t m, TableOf dir t m → f t = g m) : ts.map f = ms.map g := by
  induction h with
  | nil => rfl
  | cons ht _ ih => rw [List.map_cons, List.map_cons, hfg _ _ ht, ih]

variable {e : LSMTreeEngine} {levels : List (SortedMap MultiLevelKey DataEntry)}

/-- The levels answer for the key. -/
theorem HasLevels.answers_eq (h : e.HasLevels levels) (uninit : Uninit) (key : MultiLevelKey) :
    e.answers uninit key = levels.map fun m => liveEntry m key := by
  obtain ⟨ms, hms, rfl⟩ := h
  have htables := map_of_forall₂ hms (f := fun t => (t.read uninit e.dir key).1.toOption)
    (g := fun m => liveEntry m key) fun t m ht => by rw [ht.read_eq, toOption_answer]
  rw [answers, tableAnswers, List.map_reverse, htables, List.map_cons, List.map_append,
    List.map_map, List.map_reverse]
  rfl

/-- A read is the first live entry. -/
theorem HasLevels.get_eq (h : e.HasLevels levels) (hopen : e.isOpen = true) (uninit : Uninit)
    (key : MultiLevelKey) :
    (e.get uninit key).1 = found (levels.findSome? fun m => liveEntry m key) := by
  rw [LSMTreeEngine.get_eq hopen, h.answers_eq, List.findSome?_map]
  rfl

/-- A scan walks over each level. -/
theorem HasLevels.scans_eq (h : e.HasLevels levels) (uninit : Uninit) (query : RangeQuery) :
    e.scans uninit query = levels.map fun m => (query.walk m.entries).map fun visited =>
      .ok (visited.filter fun entry => !entry.2.deleted) := by
  obtain ⟨ms, hms, rfl⟩ := h
  have htables := map_of_forall₂ hms (f := fun t => (t.rangeScan uninit e.dir query).1)
    (g := fun m => (query.walk m.entries).map fun visited =>
      .ok (visited.filter fun entry => !entry.2.deleted)) fun t m ht => by rw [ht.rangeScan_walk]
  rw [scans, tableScans, List.map_reverse, htables, List.map_cons, List.map_append,
    List.map_map, List.map_reverse, MemTable.rangeScan_eq]
  refine congrArg _ (congrArg (· ++ _) (List.map_congr_left fun m _ => ?_))
  rw [MemTable.rangeScan_eq]
  rfl

/-- The number of entries on all levels. -/
def entryCount (e : LSMTreeEngine) : ℕ :=
  e.memtable.size + ((e.immutableMemtable.toList.map MemTable.size).sum
    + (e.sstables.map fun t => t.index.length).sum)

theorem HasLevels.sum_size (h : e.HasLevels levels) :
    (levels.map SortedMap.size).sum = e.entryCount := by
  obtain ⟨ms, hms, rfl⟩ := h
  have htables := map_of_forall₂ hms (f := fun t => t.index.length) (g := SortedMap.size)
    fun t m ht => by rw [ht.index, indexOf, List.length_map, length_located, SortedMap.size]
  rw [entryCount, htables, List.map_cons, List.sum_cons, List.map_append, List.sum_append,
    List.map_map, List.map_reverse, List.sum_reverse]
  rfl

theorem HasLevels.size_le (h : e.HasLevels levels) : ∀ m ∈ levels, m.size ≤ e.entryCount := by
  intro m hm
  rw [← h.sum_size]
  exact List.le_sum_of_mem (List.mem_map_of_mem hm)

end LSMTreeEngine

end QcDatabase
