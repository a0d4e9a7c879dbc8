/-
# Flushing does not change what is read

`flush_memtable` moves the entries of the memory tables to new tables on disk,
and may stop half way when a write fails.  In every case each level hands its
answers on to the level that takes its place in the read order:

* `immutableMemtable` to the table written for it (`sameReads_writeImmutable`);
* `memtable` to the table written for it, or to `immutableMemtable` when that
  write fails (`sameReads_flushCurrent`).

`SSTable.write_cases` says what a write does to the directory whatever its fate.
-/
import QcDatabase.Storage.Levels

namespace QcDatabase

/-! ## What a write does -/

/-- A write that may be relied on fails or leaves a table that reads back, and touches no
other file. -/
theorem SSTable.write_cases (t : SSTable) (dir : Directory)
    (m : SortedMap MultiLevelKey DataEntry) (outcome : WriteOutcome)
    (hread : ReadsBack outcome m.entries) :
    (∃ f dir', t.write dir m outcome = (.error f, t, dir') ∧
        ∀ name, name ≠ t.filename → dir'.find? name = dir.find? name) ∨
      (∃ t' dir', t.write dir m outcome = (.ok (), t', dir') ∧ t'.filename = t.filename ∧
        TableOf dir' t' m ∧ ∀ name, name ≠ t.filename → dir'.find? name = dir.find? name) := by
  by_cases hempty : m.entries = []
  · exact .inl ⟨_, dir, by rw [write.eq_def, if_pos (by simp [hempty])], fun _ _ => rfl⟩
  · cases outcome with
    | short taken left => exact absurd hread hempty
    | notOpened =>
        exact .inl ⟨_, dir, by rw [write.eq_def, if_neg (by simp [hempty])], fun _ _ => rfl⟩
    | threw what left =>
        left
        rw [write.eq_def, if_neg (by simp [hempty])]
        refine ⟨_, _, rfl, ?_⟩
        intro name hname
        cases left with
        | none => rfl
        | some file => exact SortedMap.find?_insert_ne _ _ (Ne.symm hname)
    | written =>
        obtain ⟨hwrite, htable⟩ := tableOf_write t dir hempty hread
        refine .inr ⟨_, _, hwrite, rfl, htable, ?_⟩
        intro name hname
        exact SortedMap.find?_insert_ne _ _ (Ne.symm hname)

namespace LSMTreeEngine

/-! ## Engines that are read alike -/

/-- Every point read, and every scan whose bounds are in order, has the same
result on both engines. -/
def SameReads (uninit : Uninit) (e e' : LSMTreeEngine) : Prop :=
  (∀ key, (e'.get uninit key).1 = (e.get uninit key).1) ∧
    ∀ query : RangeQuery, query.startKey ≤ query.endKey →
      (e'.rangeScan uninit query).1 = (e.rangeScan uninit query).1

theorem SameReads.refl (uninit : Uninit) (e : LSMTreeEngine) : SameReads uninit e e :=
  ⟨fun _ => rfl, fun _ _ => rfl⟩

theorem SameReads.trans {uninit : Uninit} {e e' e'' : LSMTreeEngine}
    (h : SameReads uninit e e') (h' : SameReads uninit e' e'') : SameReads uninit e e'' :=
  ⟨fun key => (h'.1 key).trans (h.1 key), fun query hle => (h'.2 query hle).trans (h.2 query hle)⟩

/-- It is enough that the levels have the same first answers and the same merged
scans. -/
theorem sameReads_of_levels {uninit : Uninit} {e e' : LSMTreeEngine} (hopen : e'.isOpen = e.isOpen)
    (hanswers : ∀ key, (e'.answers uninit key).findSome? id = (e.answers uninit key).findSome? id)
    (hscans : ∀ query : RangeQuery, query.startKey ≤ query.endKey →
      mergeLevels SortedMap.empty (e'.scans uninit query)
        = mergeLevels SortedMap.empty (e.scans uninit query)) :
    SameReads uninit e e' := by
  cases ho : e.isOpen with
  | false =>
      have ho' : e'.isOpen = false := by rw [hopen, ho]
      constructor
      · intro key
        rw [get_of_closed ho, get_of_closed ho']
      · intro query _
        rw [rangeScan_of_closed ho, rangeScan_of_closed ho']
  | true =>
      have ho' : e'.isOpen = true := by rw [hopen, ho]
      constructor
      · intro key
        rw [get_eq ho, get_eq ho', hanswers]
      · intro query hle
        rw [rangeScan_eq ho, rangeScan_eq ho', hscans query hle]

/-! ## What a flush leaves alone -/

/-- A flush leaves the directory name, the limit and the flag alone, and adds at most a
record to the log. -/
theorem flushCurrent_frame (e : LSMTreeEngine) (w : TableWrite) :
    ∃ dir immutableMemtable sstables wal, (wal = e.wal ∨ ∃ record, wal = (e.wal.append record).2) ∧
      (e.flushCurrent w).2 = { e with
        dir := dir, memtable := MemTable.empty, immutableMemtable := immutableMemtable
        sstables := sstables, wal := wal } := by
  rw [flushCurrent]
  rcases (SSTable.create (e.filenameOf w)).write e.dir e.memtable.getAllData w.outcome with
    ⟨_ | _, t, dir⟩
  · exact ⟨_, _, _, _, Or.inl rfl, rfl⟩
  · exact ⟨_, _, _, _, Or.inr ⟨_, rfl⟩, rfl⟩

theorem flushMemtable_frame (e : LSMTreeEngine) (first second : TableWrite) :
    ∃ dir memtable immutableMemtable sstables wal,
      (wal = e.wal ∨ ∃ record, wal = (e.wal.append record).2) ∧
      (e.flushMemtable first second).2 = { e with
        dir := dir, memtable := memtable, immutableMemtable := immutableMemtable
        sstables := sstables, wal := wal } := by
  rw [flushMemtable]
  split_ifs
  · exact ⟨_, _, _, _, _, Or.inl rfl, rfl⟩
  rcases e.immutableMemtable with _ | m
  · obtain ⟨dir, immutableMemtable, sstables, wal, hwal, heq⟩ := flushCurrent_frame e second
    exact ⟨dir, _, immutableMemtable, sstables, wal, hwal, heq⟩
  · dsimp only
    rcases (SSTable.create (e.filenameOf first)).write e.dir m.getAllData first.outcome with
      ⟨_ | _, t, dir'⟩
    · exact ⟨dir', _, _, _, _, Or.inl rfl, rfl⟩
    · obtain ⟨dir, immutableMemtable, sstables, wal, hwal, heq⟩ :=
        flushCurrent_frame { e with dir := dir', sstables := e.sstables ++ [t] } second
      exact ⟨dir, _, immutableMemtable, sstables, wal, hwal, heq⟩

/-! ## One write at a time -/

/-- No table of the engine has this file name. -/
def FreshName (e : LSMTreeEngine) (name : String) : Prop := ∀ t ∈ e.sstables, t.filename ≠ name

/-- The tables of the engine keep their files when only a fresh name changes. -/
theorem FreshName.find?_eq {e : LSMTreeEngine} {dir : Directory} {name : String}
    (hfresh : e.FreshName name)
    (hdir : ∀ other, other ≠ name → dir.find? other = e.dir.find? other) :
    ∀ t ∈ e.sstables, dir.find? t.filename = e.dir.find? t.filename := by
  intro t ht
  exact hdir t.filename (hfresh t ht)

/-- Files of other names may change. -/
theorem sameReads_dir {e : LSMTreeEngine} {dir : Directory} {name : String}
    (hfresh : e.FreshName name)
    (hdir : ∀ other, other ≠ name → dir.find? other = e.dir.find? other) (uninit : Uninit) :
    SameReads uninit e { e with dir := dir } := by
  have htables := hfresh.find?_eq hdir
  refine sameReads_of_levels rfl ?_ ?_
  · intro key
    rw [answers, answers, tableAnswers_congr htables]
  · intro query _
    rw [scans, scans, tableScans_congr htables]

/-- The immutable memory table moves to a table. -/
theorem sameReads_writeImmutable {e : LSMTreeEngine} {m : MemTable}
    (himm : e.immutableMemtable = some m) {t : SSTable} {dir : Directory}
    (hfresh : e.FreshName t.filename)
    (hdir : ∀ other, other ≠ t.filename → dir.find? other = e.dir.find? other)
    (htable : SSTable.TableOf dir t m.data) (uninit : Uninit) :
    SameReads uninit e { e with
      dir := dir, sstables := e.sstables ++ [t], immutableMemtable := none } := by
  have htables := hfresh.find?_eq hdir
  refine sameReads_of_levels rfl ?_ ?_
  · intro key
    rw [answers, answers, himm, tableAnswers_append, tableAnswers_congr htables,
      htable.read_eq uninit key, SSTable.toOption_answer]
    rfl
  · intro query hle
    rw [scans, scans, himm, tableScans_append, tableScans_congr htables,
      htable.rangeScan_eq uninit query hle]
    simp only [Option.toList_none, Option.toList_some, List.map_cons, List.map_nil,
      m.rangeScan_of_le query hle]
    rfl

/-- The memory table moves to a table, or becomes immutable when the write
fails. -/
theorem sameReads_flushCurrent {e : LSMTreeEngine} (himm : e.immutableMemtable = none)
    {w : TableWrite} (hfresh : e.FreshName (e.filenameOf w))
    (hread : SSTable.ReadsBack w.outcome e.memtable.data.entries) (uninit : Uninit) :
    SameReads uninit e (e.flushCurrent w).2 := by
  have hsilent : ∀ query : RangeQuery, query.startKey ≤ query.endKey →
      MemTable.empty.rangeScan query = some (.ok []) := by
    intro query hle
    rw [MemTable.empty.rangeScan_of_le query hle]
    simp [MemTable.empty, RangeQuery.scanned, RangeQuery.visited]
  rcases SSTable.write_cases (SSTable.create (e.filenameOf w)) e.dir e.memtable.data w.outcome hread with
    ⟨f, dir, hwrite, hdir⟩ | ⟨t, dir, hwrite, hname, htable, hdir⟩
  all_goals
    rw [SSTable.create_filename] at hdir
    have htables := hfresh.find?_eq hdir
    rw [flushCurrent, MemTable.getAllData, hwrite]
    refine sameReads_of_levels rfl ?_ ?_
  · intro key
    rw [answers, answers, himm, tableAnswers_congr htables]
    rfl
  · intro query hle
    rw [scans, scans, himm, tableScans_congr htables, hsilent query hle]
    exact mergeLevels_silent _ [] _
  · intro key
    rw [answers, answers, himm, tableAnswers_append, tableAnswers_congr htables,
      htable.read_eq uninit key, SSTable.toOption_answer]
    rfl
  · intro query hle
    rw [scans, scans, himm, tableScans_append, tableScans_congr htables,
      htable.rangeScan_eq uninit query hle, hsilent query hle, e.memtable.rangeScan_of_le query hle]
    exact mergeLevels_silent _ [] _

/-! ## The whole flush -/

/-- The immutable memory table is overwritten, whatever it was. -/
theorem flushCurrent_immutable (e : LSMTreeEngine) (m : Option MemTable) (w : TableWrite) :
    flushCurrent { e with immutableMemtable := m } w = e.flushCurrent w := by
  rw [flushCurrent, flushCurrent]
  rfl

/-- A flush under fresh names: what it reports to be written can be read back. -/
structure CleanFlush (e : LSMTreeEngine) (first second : TableWrite) : Prop where
  freshFirst : e.FreshName (e.filenameOf first)
  freshSecond : e.FreshName (e.filenameOf second)
  names : e.filenameOf first ≠ e.filenameOf second
  readsImmutable : ∀ m, e.immutableMemtable = some m →
    SSTable.ReadsBack first.outcome m.data.entries
  readsMemtable : SSTable.ReadsBack second.outcome e.memtable.data.entries

/-- Without tables. -/
theorem cleanFlush_of_noTables {e : LSMTreeEngine} {first second : TableWrite}
    (htables : e.sstables = []) (hne : e.filenameOf first ≠ e.filenameOf second)
    (himm : ∀ m, e.immutableMemtable = some m → SSTable.ReadsBack first.outcome m.data.entries)
    (hread : SSTable.ReadsBack second.outcome e.memtable.data.entries) :
    e.CleanFlush first second := by
  have hfresh : ∀ name, e.FreshName name := by
    intro name t ht
    rw [htables] at ht
    cases ht
  exact ⟨hfresh _, hfresh _, hne, himm, hread⟩

/-- Nor is there an immutable memory table. -/
theorem cleanFlush_of_noImmutable {e : LSMTreeEngine} {first second : TableWrite}
    (htables : e.sstables = []) (himm : e.immutableMemtable = none)
    (hne : e.filenameOf first ≠ e.filenameOf second)
    (hread : SSTable.ReadsBack second.outcome e.memtable.data.entries) :
    e.CleanFlush first second := by
  refine cleanFlush_of_noTables htables hne ?_ hread
  intro m hm
  rw [himm] at hm
  cases hm

/-- The writes of a flush hand each level on to the next, whichever of them fail. -/
theorem sameReads_flushMemtable {e : LSMTreeEngine} {first second : TableWrite}
    (h : e.CleanFlush first second) (uninit : Uninit) :
    SameReads uninit e (e.flushMemtable first second).2 := by
  rw [flushMemtable]
  split_ifs with hsize
  · exact SameReads.refl uninit e
  cases himm : e.immutableMemtable with
  | none => exact sameReads_flushCurrent himm h.freshSecond h.readsMemtable uninit
  | some m =>
      dsimp only
      rcases SSTable.write_cases (SSTable.create (e.filenameOf first)) e.dir m.data first.outcome
          (h.readsImmutable m himm) with
        ⟨f, dir, hwrite, hdir⟩ | ⟨t, dir, hwrite, hname, htable, hdir⟩
      · have hkept := sameReads_dir h.freshFirst hdir uninit
        rw [himm] at hkept
        rwa [MemTable.getAllData, hwrite]
      · have hne := h.names
        have hfirst := h.freshFirst
        rw [SSTable.create_filename] at hname hdir
        rw [← hname] at hdir hne hfirst
        have hmoved := sameReads_writeImmutable himm hfirst hdir htable uninit
        have hfresh : FreshName { e with
            dir := dir, sstables := e.sstables ++ [t], immutableMemtable := none }
            (e.filenameOf second) := by
          intro t' ht'
          rcases List.mem_append.mp ht' with ht' | ht'
          · exact h.freshSecond t' ht'
          · rw [List.mem_singleton.mp ht']
            exact hne
        rw [MemTable.getAllData, hwrite]
        dsimp only
        rw [← flushCurrent_immutable _ none]
        exact hmoved.trans (sameReads_flushCurrent rfl hfresh h.readsMemtable uninit)

/-- **A flush is invisible to readers**, whichever of its writes fail.  The file
names are fresh, and a write that returns `OK` can be read back. -/
theorem flushMemtable_invisible (e : LSMTreeEngine) (uninit : Uninit) (first second : TableWrite)
    (hfirst : e.FreshName (e.filenameOf first)) (hsecond : e.FreshName (e.filenameOf second))
    (hne : e.filenameOf first ≠ e.filenameOf second)
    (hread₁ : ∀ m, e.immutableMemtable = some m →
      SSTable.ReadsBack first.outcome m.data.entries)
    (hread₂ : SSTable.ReadsBack second.outcome e.memtable.data.entries) :
    (∀ key, ((e.flushMemtable first second).2.get uninit key).1 = (e.get uninit key).1) ∧
      ∀ query : RangeQuery, query.startKey ≤ query.endKey →
        ((e.flushMemtable first second).2.rangeScan uninit query).1
          = (e.rangeScan uninit query).1 :=
  sameReads_flushMemtable ⟨hfirst, hsecond, hne, hread₁, hread₂⟩ uninit

/-- Some millisecond of a day. -/
def sampleTime (millisecond : ℕ) : LocalTime := ⟨2024, 2, 29, 23, 59, 58, millisecond⟩

/-- A new engine in an empty directory. -/
def sampleOpened : LSMTreeEngine :=
  ((create "d" SortedMap.empty none 10).open ⟨0, 0, 0, 0, 0⟩ .readWrite (fun _ => 0) fun _ => 0).2

/-- An open engine with one key in its memory table, an older entry of that key
and a second key in an immutable one, and no tables. -/
def sampleEngine : LSMTreeEngine :=
  { create "d" SortedMap.empty none 10 with
    memtable := (MemTable.empty.put ⟨[97], []⟩ ⟨[1], 1, 0, false⟩).2
    immutableMemtable := some ((MemTable.empty.put ⟨[97], []⟩ ⟨[0], 1, 0, false⟩).2.put ⟨[98], []⟩
      ⟨[2], 1, 0, false⟩).2
    isOpen := true }

/-- The first write succeeds, the second cannot open its file. -/
theorem flushMemtable_invisible_sampleEngine :
    (∀ key, ((sampleEngine.flushMemtable ⟨sampleTime 1, .written⟩ ⟨sampleTime 2, .notOpened⟩).2.get
        ⟨0, 0, 0, 0, 0⟩ key).1 = (sampleEngine.get ⟨0, 0, 0, 0, 0⟩ key).1) ∧
      ∀ query : RangeQuery, query.startKey ≤ query.endKey →
        ((sampleEngine.flushMemtable ⟨sampleTime 1, .written⟩ ⟨sampleTime 2, .notOpened⟩).2.rangeScan
          ⟨0, 0, 0, 0, 0⟩ query).1 = (sampleEngine.rangeScan ⟨0, 0, 0, 0, 0⟩ query).1 := by
  refine flushMemtable_invisible sampleEngine ⟨0, 0, 0, 0, 0⟩ _ _ ?_ ?_ (by decide +kernel) ?_ trivial
  · intro t ht
    cases ht
  · intro t ht
    cases ht
  · intro m hm
    obtain rfl := Option.some.inj hm
    decide +kernel

end LSMTreeEngine

end QcDatabase
