/-
# What the statistics say (`src/storage/lsm_tree.cpp`)

`LSMTreeEngine::size` adds up counters that the levels keep, `memory_usage` counters of the
memory tables.

* After any calls the counters are right (`Counted.callStep`): those of the memory tables are
  the bytes of their entries, those of the tables the number of their entries.
* So `size` is the number of entries on all levels.  A flush moves entries and never changes
  it, whatever writes fail (`size_flushMemtable`).
* An entry is counted on every level it is on, deletion marks as well: `size` bounds the number
  of keys that are found, and is this number just when there is nothing else on the levels
  (`size_exact`).
-/
import QcDatabase.Storage.MemoryAccounting
import QcDatabase.Storage.ScanResults

namespace QcDatabase

namespace SSTable

/-- The table counts the entries of its index. -/
def Sized (t : SSTable) : Prop := t.size = t.index.length

variable {t : SSTable} {uninit : Uninit} {dir : Directory}

theorem sized_create (name : String) : (SSTable.create name).Sized := rfl

theorem Sized.loadIndex (h : t.Sized) (uninit : Uninit) (dir : Directory) :
    (t.loadIndex uninit dir).2.Sized := by
  rw [SSTable.loadIndex]
  cases dir.find? t.filename with
  | none => exact h
  | some file =>
      dsimp only
      split_ifs
      · exact h
      · exact h
      · rfl

theorem Sized.ensureIndex (h : t.Sized) : (t.ensureIndex uninit dir).2.Sized := by
  rw [SSTable.ensureIndex]
  split_ifs
  · exact h.loadIndex uninit dir
  · exact h

theorem Sized.reread (h : t.Sized) {t' : SSTable} (hreread : Reread uninit dir t t') : t'.Sized := by
  rcases hreread with rfl | rfl
  · exact h
  · exact h.ensureIndex

/-- A write that succeeds gives a table with the counted entries; one that fails gives none. -/
theorem size_of_write_ok {m : SortedMap MultiLevelKey DataEntry} {outcome : WriteOutcome} {t' : SSTable}
    {dir' : Directory} (h : t.write dir m outcome = (.ok (), t', dir')) :
    t'.size = m.size ∧ t'.Sized := by
  rw [SSTable.write.eq_def] at h
  split_ifs at h with hempty
  · cases h
  · cases outcome with
    | notOpened => cases h
    | threw what left => cases h
    | written =>
        dsimp only at h
        obtain ⟨-, rfl, -⟩ := by simpa only [Prod.mk.injEq] using h
        exact ⟨rfl, (length_snd_layoutBy endOfFile m.entries).symm⟩
    | short taken left =>
        dsimp only at h
        obtain ⟨-, rfl, -⟩ := by simpa only [Prod.mk.injEq] using h
        exact ⟨rfl, (length_snd_layoutBy (endOfTaken taken) m.entries).symm⟩

end SSTable

namespace LSMTreeEngine

open SSTable

/-! ## The counters -/

/-- All counters are right. -/
structure Counted (e : LSMTreeEngine) : Prop where
  memtable : e.memtable.Accounted
  immutable : ∀ m, e.immutableMemtable = some m → m.Accounted
  tables : ∀ t ∈ e.sstables, t.Sized

/-- A `put` leaves the memory table alone, or puts the entry into it. -/
theorem put_memtable (e : LSMTreeEngine) (key : MultiLevelKey) (entry : DataEntry) :
    ∃ wal, (e.put key entry).2 = { e with wal := wal } ∨
      (e.put key entry).2 = { e with wal := wal, memtable := (e.memtable.put key entry).2 } := by
  rw [put]
  split_ifs
  · exact ⟨e.wal, Or.inl rfl⟩
  · rcases e.wal.append ⟨WALEntryType.put, key, entry, 0⟩ with ⟨f | _, wal⟩
    · exact ⟨wal, Or.inl rfl⟩
    · refine ⟨wal, Or.inr ?_⟩
      rcases e.memtable.put key entry with ⟨_ | _, m⟩ <;> rfl

theorem remove_memtable (e : LSMTreeEngine) (key : MultiLevelKey) (now : Timestamp) :
    ∃ wal, (e.remove key now).2 = { e with wal := wal } ∨
      (e.remove key now).2 = { e with wal := wal, memtable := (e.memtable.remove key now).2 } := by
  rw [remove]
  split_ifs
  · exact ⟨e.wal, Or.inl rfl⟩
  · dsimp only
    rcases e.wal.append _ with ⟨f | _, wal⟩
    · exact ⟨wal, Or.inl rfl⟩
    · exact ⟨wal, Or.inr rfl⟩

theorem sized_of_rereadAll {uninit : Uninit} {dir : Directory} {ts ts' : List SSTable}
    (h : RereadAll uninit dir ts ts') (htables : ∀ t ∈ ts, t.Sized) : ∀ t ∈ ts', t.Sized := by
  induction h with
  | nil => exact List.forall_mem_nil _
  | cons ht _ ih =>
      rw [List.forall_mem_cons] at htables
      exact List.forall_mem_cons.mpr ⟨htables.1.reread ht, ih htables.2⟩

namespace Counted

variable {e : LSMTreeEngine} {uninit : Uninit}

theorem put (h : Counted e) (key : MultiLevelKey) (entry : DataEntry) :
    Counted (e.put key entry).2 := by
  obtain ⟨wal, heq | heq⟩ := e.put_memtable key entry
  · rw [heq]
    exact { h with }
  · rw [heq]
    exact { h with memtable := h.memtable.put key entry }

theorem remove (h : Counted e) (key : MultiLevelKey) (now : Timestamp) :
    Counted (e.remove key now).2 := by
  obtain ⟨wal, heq | heq⟩ := e.remove_memtable key now
  · rw [heq]
    exact { h with }
  · rw [heq]
    exact { h with memtable := h.memtable.remove key now }

/-- Reading loads indexes at most. -/
theorem withSstables (h : Counted e) {ts : List SSTable}
    (hreread : RereadAll uninit e.dir e.sstables ts) : Counted (e.withSstables ts) := by
  exact { h with tables := sized_of_rereadAll hreread h.tables }

theorem get (h : Counted e) (key : MultiLevelKey) : Counted (e.get uninit key).2 := by
  obtain ⟨ts, hget, hreread⟩ := e.get_frame uninit key
  rw [hget]
  exact h.withSstables hreread

theorem rangeScan (h : Counted e) (query : RangeQuery) : Counted (e.rangeScan uninit query).2 := by
  obtain ⟨ts, hscan, hreread⟩ := e.rangeScan_frame uninit query
  rw [hscan]
  exact h.withSstables hreread

theorem flushCurrent (h : Counted e) (w : TableWrite) : Counted (e.flushCurrent w).2 := by
  rw [LSMTreeEngine.flushCurrent]
  rcases hwrite : (SSTable.create (e.filenameOf w)).write e.dir e.memtable.getAllData w.outcome
    with ⟨f | ⟨⟩, t, dir⟩
  · exact {
      memtable := MemTable.accounted_empty
      immutable := by
        intro m hm
        obtain rfl := Option.some.inj hm
        exact h.memtable
      tables := h.tables }
  · exact {
      memtable := MemTable.accounted_empty
      immutable := by
        intro m hm
        cases hm
      tables := List.forall_mem_append.mpr
        ⟨h.tables, List.forall_mem_singleton.mpr (size_of_write_ok hwrite).2⟩ }

theorem flushMemtable (h : Counted e) (first second : TableWrite) :
    Counted (e.flushMemtable first second).2 := by
  rw [LSMTreeEngine.flushMemtable]
  split_ifs
  · exact h
  cases himm : e.immutableMemtable with
  | none => exact h.flushCurrent second
  | some m =>
      dsimp only
      rcases hwrite : (SSTable.create (e.filenameOf first)).write e.dir m.getAllData first.outcome
        with ⟨f | ⟨⟩, t, dir⟩
      · exact {
          memtable := h.memtable
          immutable := by
            intro m' hm'
            obtain rfl := Option.some.inj hm'
            exact h.immutable m himm
          tables := h.tables }
      · refine flushCurrent ?_ second
        exact {
          memtable := h.memtable
          immutable := by
            intro m' hm'
            obtain rfl := Option.some.inj hm'
            exact h.immutable m himm
          tables := List.forall_mem_append.mpr
            ⟨h.tables, List.forall_mem_singleton.mpr (size_of_write_ok hwrite).2⟩ }

theorem compactSstables (h : Counted e) (w : TableWrite) : Counted (e.compactSstables w).2 := by
  rcases hts : e.sstables with _ | ⟨sstable1, _ | ⟨sstable2, sstables⟩⟩
  · rw [compactSstables_of_lt (by rw [hts]; decide)]
    exact h
  · rw [compactSstables_of_lt (by rw [hts]; exact Nat.lt_succ_self 1)]
    exact h
  · rw [compactSstables_eq hts]
    refine { h with tables := ?_ }
    intro t ht
    refine h.tables t ?_
    rw [hts]
    exact List.mem_cons_of_mem _ (List.mem_cons_of_mem _ ht)

theorem applyWalEntries {m : MemTable} (h : m.Accounted) (now : ℕ → Timestamp) (i : ℕ)
    (entries : List WALEntry) : (LSMTreeEngine.applyWalEntries now i entries m).Accounted := by
  induction entries generalizing m i with
  | nil => exact h
  | cons entry entries ih =>
      refine ih ?_ (i + 1)
      unfold applyWalEntry
      split_ifs
      · exact h.put entry.key entry.data
      · exact h.remove entry.key (now i)
      · exact h

theorem sized_loadTables (uninit : Uninit) (dir : Directory) (names : List String) :
    ∀ t ∈ loadTables uninit dir names, t.Sized := by
  induction names with
  | nil => exact List.forall_mem_nil _
  | cons name names ih =>
      have hload := (sized_create name).loadIndex uninit dir
      rw [loadTables]
      rcases hresult : (SSTable.create name).loadIndex uninit dir with ⟨f | ⟨⟩, t⟩
      · exact ih
      · rw [hresult] at hload
        exact List.forall_mem_cons.mpr ⟨hload, ih⟩

theorem «open» (h : Counted e) (access : LogAccess) (decoded applied : ℕ → Timestamp) :
    Counted (e.open uninit access decoded applied).2 := by
  rw [LSMTreeEngine.open]
  split_ifs
  · exact h
  · rcases e.wal.open access with ⟨f | ⟨⟩, wal⟩
    · exact { h with }
    · dsimp only
      rw [recoverFromWal]
      dsimp only
      rcases wal.replayFrom 0 decoded with ⟨f | entries, wal'⟩
      · exact { h with }
      · exact {
          memtable := applyWalEntries h.memtable applied 0 entries
          immutable := h.immutable
          tables := List.forall_mem_append.mpr ⟨h.tables, sized_loadTables uninit e.dir _⟩ }

theorem create (dataDir : String) (dir : Directory) (log : Option Bytes) (maxSstables : ℕ) :
    Counted (LSMTreeEngine.create dataDir dir log maxSstables) where
  memtable := MemTable.accounted_empty
  immutable := by
    intro m hm
    cases hm
  tables := List.forall_mem_nil _

/-- **Step lemma.**  Every call keeps the counters right. -/
theorem callStep (h : Counted e) (call : PublicCall) : Counted (e.callStep uninit call) := by
  cases call with
  | get key => exact h.get key
  | put key entry => exact h.put key entry
  | putIfVersionMatch key entry expectedVersion =>
      exact invariant_putIfVersionMatch h (h.get key) (fun entry => (h.get key).put key entry) entry
        expectedVersion
  | remove key now => exact h.remove key now
  | removeIfVersionMatch key expectedVersion now =>
      exact invariant_removeIfVersionMatch h (h.get key) ((h.get key).remove key now) expectedVersion
  | rangeScan query => exact h.rangeScan query
  | multiGet clock keys =>
      exact invariant_multiGetFrom (P := Counted) (fun _ key he => he.get key) h clock 0 keys
  | multiPut entries => exact invariant_multiPut (fun _ entry _ he => he.put entry.1 entry.2) h
  | flush first second =>
      exact invariant_flush h (fun _ => h.flushMemtable first second) fun _ he => { he with }
  | compact merged =>
      rw [LSMTreeEngine.callStep, compact]
      split_ifs
      · exact h
      · exact h.compactSstables merged
  | backgroundWork first second merged =>
      rw [LSMTreeEngine.callStep]
      split_ifs
      · exact invariant_backgroundWork h (h.flushMemtable first second)
          fun _ he => he.compactSstables merged
      · exact h
  | close first second =>
      rw [LSMTreeEngine.callStep, LSMTreeEngine.close]
      split_ifs
      · exact h
      · exact { h.flushMemtable first second with }
      · exact { h with }
  | «open» access decoded applied => exact h.open access decoded applied
  | recreate maxSstables => exact create _ _ _ _

/-- **Run lemma.** -/
theorem callRun (h : Counted e) (calls : List PublicCall) : Counted (e.callRun uninit calls) :=
  StepRun.invariant Counted (fun _ call he => he.callStep call) h calls

end Counted

/-! ## What the counters add up to -/

section

variable {e : LSMTreeEngine} {uninit : Uninit}

/-- `size` is the number of entries on all levels. -/
theorem Counted.size_eq (h : Counted e) : e.size = e.entryCount := by
  have htables : e.sstables.map SSTable.size = e.sstables.map fun t => t.index.length :=
    List.map_congr_left h.tables
  unfold size entryCount
  rw [htables]
  cases e.immutableMemtable <;> rfl

/-- `memory_usage` is the number of bytes in memory, counted in a machine word. -/
theorem Counted.memoryUsage_eq (h : Counted e) :
    e.memoryUsage
      = UInt64.ofNat ((e.memtable :: e.immutableMemtable.toList).map MemTable.contentSize).sum := by
  have himm := h.immutable
  unfold memoryUsage
  rw [show e.memtable.memoryUsage = UInt64.ofNat e.memtable.contentSize from h.memtable]
  cases hm : e.immutableMemtable with
  | none => simp
  | some m =>
      rw [hm] at himm
      have hbytes : m.memoryUsage = UInt64.ofNat m.contentSize := himm m rfl
      simp [hbytes, UInt64.ofNat_add]

theorem size_flushCurrent (e : LSMTreeEngine) (w : TableWrite) :
    (e.flushCurrent w).2.size = e.memtable.size + (e.sstables.map SSTable.size).sum := by
  rw [flushCurrent]
  rcases hwrite : (SSTable.create (e.filenameOf w)).write e.dir e.memtable.getAllData w.outcome
    with ⟨f | ⟨⟩, t, dir⟩
  · show 0 + (e.memtable.size + _) = _
    rw [Nat.zero_add]
  · have hsize : t.size = e.memtable.size := (size_of_write_ok hwrite).1
    show 0 + (0 + ((e.sstables ++ [t]).map SSTable.size).sum) = _
    rw [List.map_append, List.sum_append, List.map_singleton, List.sum_singleton, hsize]
    omega

/-- **A flush does not change `size`**, whatever becomes of its writes. -/
theorem size_flushMemtable (e : LSMTreeEngine) (first second : TableWrite) :
    (e.flushMemtable first second).2.size = e.size := by
  rw [flushMemtable]
  split_ifs
  · rfl
  unfold size
  cases himm : e.immutableMemtable with
  | none =>
      rw [← size, size_flushCurrent]
      show _ = e.memtable.size + (0 + _)
      rw [Nat.zero_add]
  | some m =>
      dsimp only
      rcases hwrite : (SSTable.create (e.filenameOf first)).write e.dir m.getAllData first.outcome
        with ⟨f | ⟨⟩, t, dir⟩
      · rfl
      · have hsize : t.size = m.size := (size_of_write_ok hwrite).1
        rw [← size, size_flushCurrent]
        show e.memtable.size + ((e.sstables ++ [t]).map SSTable.size).sum
          = e.memtable.size + (m.size + (e.sstables.map SSTable.size).sum)
        rw [List.map_append, List.sum_append, List.map_singleton, List.sum_singleton, hsize]
        omega

end

/-- **The statistics after any calls**, whatever fails in them: `size` is the number of entries
on all levels, and `memory_usage` the number of bytes of those in memory. -/
theorem statistics_exact (uninit : Uninit) (dataDir : String) (dir : Directory)
    (log : Option Bytes) (maxSstables : ℕ) (calls : List PublicCall) :
    let e := (create dataDir dir log maxSstables).callRun uninit calls
    e.size = e.entryCount ∧
      (((e.memtable :: e.immutableMemtable.toList).map MemTable.contentSize).sum < UInt64.size →
        e.memoryUsage.toNat
          = ((e.memtable :: e.immutableMemtable.toList).map MemTable.contentSize).sum) ∧
      ∀ first second, (e.flushMemtable first second).2.size = e.size := by
  intro e
  have hcounted : Counted e := (Counted.create dataDir dir log maxSstables).callRun calls
  refine ⟨hcounted.size_eq, fun hfits => ?_, size_flushMemtable e⟩
  rw [hcounted.memoryUsage_eq, UInt64.toNat_ofNat_of_lt' hfits]

/-- Two deletion marks and an entry in memory. -/
theorem statistics_exact_leveledEngine :
    leveledEngine.size = leveledEngine.entryCount ∧
      leveledEngine.memoryUsage.toNat
        = ((leveledEngine.memtable :: leveledEngine.immutableMemtable.toList).map
            MemTable.contentSize).sum := by
  obtain ⟨hsize, hmemory, -⟩ :=
    statistics_exact ⟨0, 0, 0, 0, 0⟩ "d" SortedMap.empty none 10 leveledCalls
  exact ⟨hsize, hmemory (by decide +kernel)⟩

/-! ## Entries and keys -/

/-- The keys that a level answers for. -/
def liveKeys (m : SortedMap MultiLevelKey DataEntry) : List MultiLevelKey :=
  (m.entries.filter fun entry => !entry.2.deleted).map Prod.fst

/-- There is nothing on the levels but live entries, each the only one of its key. -/
structure NothingElse (levels : List (SortedMap MultiLevelKey DataEntry)) : Prop where
  live : ∀ m ∈ levels, ∀ entry ∈ m.entries, entry.2.deleted = false
  distinct : (levels.flatMap liveKeys).Nodup

theorem mem_liveKeys_iff {m : SortedMap MultiLevelKey DataEntry} {key : MultiLevelKey} :
    key ∈ liveKeys m ↔ (liveEntry m key).isSome = true := by
  unfold liveKeys liveEntry
  constructor
  · intro hmem
    obtain ⟨⟨key', entry⟩, hentry, rfl⟩ := List.mem_map.mp hmem
    obtain ⟨hentry, hlive⟩ := List.mem_filter.mp hentry
    rw [m.find?_eq_some_of_mem hentry, Option.filter_some, if_pos hlive]
    rfl
  · intro hsome
    obtain ⟨entry, hentry⟩ := Option.isSome_iff_exists.mp hsome
    obtain ⟨hfind, hlive⟩ := Option.filter_eq_some_iff.mp hentry
    exact List.mem_map.mpr ⟨(key, entry), List.mem_filter.mpr ⟨m.mem_of_find?_eq_some hfind, hlive⟩, rfl⟩

theorem length_liveKeys_le (m : SortedMap MultiLevelKey DataEntry) :
    (liveKeys m).length ≤ m.size := by
  unfold liveKeys SortedMap.size
  rw [List.length_map]
  exact List.length_filter_le _ _

theorem length_liveKeys_eq_iff (m : SortedMap MultiLevelKey DataEntry) :
    (liveKeys m).length = m.size ↔ ∀ entry ∈ m.entries, entry.2.deleted = false := by
  unfold liveKeys SortedMap.size
  rw [List.length_map, List.length_filter_eq_length_iff]
  simp only [Bool.not_eq_true']

/-- The live entries of the levels, and all of them. -/
theorem length_flatMap_liveKeys (levels : List (SortedMap MultiLevelKey DataEntry)) :
    (levels.flatMap liveKeys).length ≤ (levels.map SortedMap.size).sum ∧
      ((levels.flatMap liveKeys).length = (levels.map SortedMap.size).sum ↔
        ∀ m ∈ levels, ∀ entry ∈ m.entries, entry.2.deleted = false) := by
  induction levels with
  | nil => exact ⟨Nat.le_refl 0, by simp⟩
  | cons m levels ih =>
      have hle := length_liveKeys_le m
      rw [List.flatMap_cons, List.length_append, List.map_cons, List.sum_cons, List.forall_mem_cons,
        ← ih.2, ← length_liveKeys_eq_iff]
      obtain ⟨hrest, -⟩ := ih
      refine ⟨Nat.add_le_add hle hrest, ?_⟩
      omega

variable {e : LSMTreeEngine} {uninit : Uninit} {levels : List (SortedMap MultiLevelKey DataEntry)}

/-- The keys that are found are the live ones of all levels. -/
theorem HasLevels.isOk_get_iff (h : e.HasLevels levels) (hopen : e.isOpen = true)
    (key : MultiLevelKey) :
    Result.isOk (e.get uninit key).1 = true ↔ key ∈ levels.flatMap liveKeys := by
  rw [h.get_eq hopen, List.mem_flatMap]
  have hfound : Result.isOk (found (levels.findSome? fun m => liveEntry m key)) = true
      ↔ (levels.findSome? fun m => liveEntry m key).isSome = true := by
    cases levels.findSome? fun m => liveEntry m key <;> simp [found]
  rw [hfound, List.findSome?_isSome_iff]
  simp only [mem_liveKeys_iff]

/-- **What `size` says of the keys**: after any calls that keep the tables intact it is the
number of entries on all levels, which is at least the number of keys that are found, and is
this number iff there is nothing else on the levels. -/
theorem size_exact (h : ReachedSafely uninit e) (hopen : e.isOpen = true) :
    ∃ levels, e.HasLevels levels ∧ e.size = (levels.map SortedMap.size).sum ∧
      (∀ keys : List MultiLevelKey, keys.Nodup →
        (∀ key ∈ keys, Result.isOk (e.get uninit key).1 = true) → keys.length ≤ e.size) ∧
      ((∃ keys : List MultiLevelKey, keys.Nodup ∧
        (∀ key ∈ keys, Result.isOk (e.get uninit key).1 = true) ∧ keys.length = e.size) ↔
          NothingElse levels) := by
  obtain ⟨levels, hlevels⟩ := h.intact.exists_hasLevels
  have hcounted : Counted e := by
    obtain ⟨dataDir, dir, log, maxSstables, calls, -, rfl⟩ := h
    exact (Counted.create dataDir dir log maxSstables).callRun calls
  have hsize : e.size = (levels.map SortedMap.size).sum := by
    rw [hcounted.size_eq, hlevels.sum_size]
  obtain ⟨hle, hall⟩ := length_flatMap_liveKeys levels
  have hsubperm : ∀ keys : List MultiLevelKey, keys.Nodup →
      (∀ key ∈ keys, Result.isOk (e.get uninit key).1 = true) →
        List.Subperm keys (levels.flatMap liveKeys) := fun keys hnodup hfound =>
    List.subperm_of_subset hnodup fun key hkey => (hlevels.isOk_get_iff hopen key).mp (hfound key hkey)
  refine ⟨levels, hlevels, hsize, ?_, ?_, ?_⟩
  · intro keys hnodup hfound
    rw [hsize]
    exact (hsubperm keys hnodup hfound).length_le.trans hle
  · rintro ⟨keys, hnodup, hfound, hlength⟩
    have hsub := hsubperm keys hnodup hfound
    have hcount := hsub.length_le
    rw [hsize] at hlength
    exact ⟨hall.mp (by omega), (hsub.perm_of_length_le (by omega)).nodup hnodup⟩
  · intro hnothing
    refine ⟨levels.flatMap liveKeys, hnothing.distinct, fun key hkey => ?_, ?_⟩
    · exact (hlevels.isOk_get_iff hopen key).mpr hkey
    · rw [hsize]
      exact hall.mpr hnothing.live

/-- Three keys are found and five entries counted. -/
theorem size_exact_leveledEngine :
    leveledEngine.size = 5 ∧
      ([⟨[97], []⟩, ⟨[98], []⟩, ⟨[100], []⟩] : List MultiLevelKey).length ≤ leveledEngine.size := by
  obtain ⟨-, -, -, hbound, -⟩ := size_exact reachedSafely_leveledEngine (by decide +kernel)
  refine ⟨by decide +kernel, hbound _ (by decide +kernel) ?_⟩
  decide +kernel

end LSMTreeEngine

end QcDatabase
