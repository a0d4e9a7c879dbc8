/-
# Reads as questions to the levels

Which level answers a read, separated from how the engine walks them:

* `answers` lists what the levels answer to a point read, newest first, and
  `get_eq` says that `get` returns the first of these answers;
* `scans` lists what they answer to a range query, newest first, and
  `rangeScan_eq` says that `range_scan` merges these answers in this order.

A level that is silent may be left out of a scan (`mergeLevels_silent`)
and files that belong to no table may come and go (`SSTable.read_congr`,
`SSTable.rangeScan_congr`).
-/
import QcDatabase.Storage.LsmTree
import QcDatabase.Storage.SSTableFormat

namespace QcDatabase

/-! ## Tables depend on their own file only -/

namespace SSTable

theorem loadIndex_filename (t : SSTable) (uninit : Uninit) (dir : Directory) :
    (t.loadIndex uninit dir).2.filename = t.filename := by
  rw [loadIndex]
  cases dir.find? t.filename with
  | none => rfl
  | some file =>
      dsimp only
      split_ifs <;> rfl

theorem ensureIndex_filename (t : SSTable) (uninit : Uninit) (dir : Directory) :
    (t.ensureIndex uninit dir).2.filename = t.filename := by
  rw [ensureIndex]
  split_ifs
  · exact t.loadIndex_filename uninit dir
  · rfl

theorem ensureIndex_congr {t : SSTable} {dir dir' : Directory}
    (h : dir'.find? t.filename = dir.find? t.filename) (uninit : Uninit) :
    t.ensureIndex uninit dir' = t.ensureIndex uninit dir := by
  rw [ensureIndex, ensureIndex, loadIndex, loadIndex, h]

theorem lookup_congr {t : SSTable} {dir dir' : Directory}
    (h : dir'.find? t.filename = dir.find? t.filename) (uninit : Uninit) (key : MultiLevelKey) :
    t.lookup uninit dir' key = t.lookup uninit dir key := by
  rw [lookup, lookup, h]

theorem scan_congr {t : SSTable} {dir dir' : Directory}
    (h : dir'.find? t.filename = dir.find? t.filename) (uninit : Uninit) (query : RangeQuery) :
    t.scan uninit dir' query = t.scan uninit dir query := by
  rw [scan, scan, h]

/-- A point read looks at one file. -/
theorem read_congr {t : SSTable} {dir dir' : Directory}
    (h : dir'.find? t.filename = dir.find? t.filename) (uninit : Uninit) (key : MultiLevelKey) :
    t.read uninit dir' key = t.read uninit dir key := by
  have hname := t.ensureIndex_filename uninit dir
  rw [read, read, ensureIndex_congr h]
  rcases hens : t.ensureIndex uninit dir with ⟨f | _, t'⟩
  · rfl
  · rw [hens] at hname
    exact congrArg (·, t') (lookup_congr (hname ▸ h) uninit key)

/-- A scan looks at one file. -/
theorem rangeScan_congr {t : SSTable} {dir dir' : Directory}
    (h : dir'.find? t.filename = dir.find? t.filename) (uninit : Uninit) (query : RangeQuery) :
    t.rangeScan uninit dir' query = t.rangeScan uninit dir query := by
  have hname := t.ensureIndex_filename uninit dir
  rw [rangeScan, rangeScan, ensureIndex_congr h]
  rcases hens : t.ensureIndex uninit dir with ⟨f | _, t'⟩
  · rfl
  · rw [hens] at hname
    exact congrArg (·, t') (scan_congr (hname ▸ h) uninit query)

end SSTable

/-! ## Point reads -/

/-- The result of a read that found this entry, or none. -/
def found : Option DataEntry → Result DataEntry
  | some entry => .ok entry
  | none => .error ⟨.notFound, "Key not found"⟩

theorem found_inj {a b : Option DataEntry} : found a = found b ↔ a = b := by
  cases a <;> cases b <;> simp [found]

theorem MemTable.toOption_get (m : MemTable) (key : MultiLevelKey) :
    (m.get key).toOption = liveEntry m.data key := by
  cases h : m.get key with
  | ok entry => exact ((m.get_eq_ok_iff key entry).mp h).symm
  | error f =>
      cases hl : liveEntry m.data key with
      | none => rfl
      | some entry =>
          rw [(m.get_eq_ok_iff key entry).mpr hl] at h
          cases h

theorem SSTable.toOption_answer (m : SortedMap MultiLevelKey DataEntry) (key : MultiLevelKey) :
    (answer m key).toOption = liveEntry m key := by
  cases h : answer m key with
  | ok entry => exact ((answer_eq_ok_iff m key entry).mp h).symm
  | error f =>
      cases hl : liveEntry m key with
      | none => rfl
      | some entry =>
          rw [(answer_eq_ok_iff m key entry).mpr hl] at h
          cases h

namespace LSMTreeEngine

/-- What the tables answer to a point read, newest first. -/
def tableAnswers (uninit : Uninit) (dir : Directory) (key : MultiLevelKey) (ts : List SSTable) :
    List (Option DataEntry) :=
  ts.reverse.map fun t => (t.read uninit dir key).1.toOption

/-- What the levels answer to a point read, newest first. -/
def answers (e : LSMTreeEngine) (uninit : Uninit) (key : MultiLevelKey) :
    List (Option DataEntry) :=
  liveEntry e.memtable.data key ::
    (e.immutableMemtable.toList.map (fun m => liveEntry m.data key)
      ++ tableAnswers uninit e.dir key e.sstables)

/-- The walk over the tables returns their first answer. -/
theorem getFromSstables_eq (uninit : Uninit) (dir : Directory) (key : MultiLevelKey)
    (ts : List SSTable) :
    (getFromSstables uninit dir key ts).1.toOption
      = (tableAnswers uninit dir key ts).findSome? id := by
  induction ts with
  | nil => rfl
  | cons t newer ih =>
      rw [tableAnswers, List.reverse_cons, List.map_append, List.findSome?_append,
        ← tableAnswers, ← ih, getFromSstables]
      rcases getFromSstables uninit dir key newer with ⟨f | entry, newer'⟩
      · rcases h : t.read uninit dir key with ⟨f' | entry', t'⟩ <;> simp [Except.toOption, h]
      · rfl

/-- **A point read returns the first answer.** -/
theorem get_eq {e : LSMTreeEngine} (hopen : e.isOpen = true) (uninit : Uninit)
    (key : MultiLevelKey) :
    (e.get uninit key).1 = found ((e.answers uninit key).findSome? id) := by
  have htables := getFromSstables_eq uninit e.dir key e.sstables
  rw [get, if_neg (by simp [hopen]), answers, List.findSome?_cons, List.findSome?_append,
    ← htables, ← MemTable.toOption_get]
  cases e.memtable.get key with
  | ok entry => rfl
  | error f =>
      cases e.immutableMemtable with
      | none =>
          rcases getFromSstables uninit e.dir key e.sstables with ⟨f' | entry, ts⟩ <;> rfl
      | some m =>
          simp only [Option.map_some, Option.toList_some, List.map_cons, List.map_nil,
            ← MemTable.toOption_get]
          cases m.get key with
          | ok entry => rfl
          | error f' =>
              rcases getFromSstables uninit e.dir key e.sstables with ⟨f'' | entry, ts⟩ <;> rfl

/-- A closed engine answers no read. -/
theorem get_of_closed {e : LSMTreeEngine} (hclosed : e.isOpen = false) (uninit : Uninit)
    (key : MultiLevelKey) :
    (e.get uninit key).1 = .error ⟨.storageError, "LSM tree is not open"⟩ := by
  rw [get, if_pos (by simp [hclosed])]

/-- Tables whose files are untouched answer as before. -/
theorem tableAnswers_congr {dir dir' : Directory} {ts : List SSTable}
    (h : ∀ t ∈ ts, dir'.find? t.filename = dir.find? t.filename) (uninit : Uninit)
    (key : MultiLevelKey) :
    tableAnswers uninit dir' key ts = tableAnswers uninit dir key ts := by
  rw [tableAnswers, tableAnswers]
  refine List.map_congr_left ?_
  intro t ht
  rw [SSTable.read_congr (h t (List.mem_reverse.mp ht))]

theorem tableAnswers_append (uninit : Uninit) (dir : Directory) (key : MultiLevelKey)
    (ts : List SSTable) (t : SSTable) :
    tableAnswers uninit dir key (ts ++ [t])
      = (t.read uninit dir key).1.toOption :: tableAnswers uninit dir key ts := by
  simp [tableAnswers]

/-! ## Scans -/

/-- What the tables answer to a range query, newest first. -/
def tableScans (uninit : Uninit) (dir : Directory) (query : RangeQuery) (ts : List SSTable) :
    List (Option (Result (List (MultiLevelKey × DataEntry)))) :=
  ts.reverse.map fun t => (t.rangeScan uninit dir query).1

/-- What the levels answer to a range query, newest first. -/
def scans (e : LSMTreeEngine) (uninit : Uninit) (query : RangeQuery) :
    List (Option (Result (List (MultiLevelKey × DataEntry)))) :=
  e.memtable.rangeScan query ::
    (e.immutableMemtable.toList.map (fun m => m.rangeScan query)
      ++ tableScans uninit e.dir query e.sstables)

/-- Merge the answers of levels, newest first, into what newer levels gave. -/
def mergeLevels (merged : SortedMap MultiLevelKey DataEntry)
    (levels : List (Option (Result (List (MultiLevelKey × DataEntry))))) :
    Option (SortedMap MultiLevelKey DataEntry) :=
  levels.foldlM (fun merged scan => scan.map (mergeScan merged)) merged

theorem mergeLevels_append (merged : SortedMap MultiLevelKey DataEntry)
    (l l' : List (Option (Result (List (MultiLevelKey × DataEntry))))) :
    mergeLevels merged (l ++ l') = (mergeLevels merged l).bind fun m => mergeLevels m l' := by
  rw [mergeLevels, List.foldlM_append]
  rfl

/-- A level without entries changes no scan. -/
theorem mergeLevels_silent (merged : SortedMap MultiLevelKey DataEntry)
    (l l' : List (Option (Result (List (MultiLevelKey × DataEntry))))) :
    mergeLevels merged (l ++ some (.ok []) :: l') = mergeLevels merged (l ++ l') := by
  rw [mergeLevels_append, mergeLevels_append]
  rfl

/-- The walk over the tables merges their answers. -/
theorem scanSstables_eq (uninit : Uninit) (dir : Directory) (query : RangeQuery)
    (ts : List SSTable) (merged : SortedMap MultiLevelKey DataEntry) :
    (scanSstables uninit dir query ts merged).1
      = mergeLevels merged (tableScans uninit dir query ts) := by
  induction ts with
  | nil => rfl
  | cons t newer ih =>
      rw [tableScans, List.reverse_cons, List.map_append, mergeLevels_append, ← tableScans, ← ih,
        scanSstables]
      rcases scanSstables uninit dir query newer merged with ⟨_ | merged', newer'⟩
      · rfl
      · rcases h : t.rangeScan uninit dir query with ⟨scan, t'⟩
        cases scan <;> simp [mergeLevels, h]

/-- Entries with distinct new keys: overwriting and filling in are the same. -/
theorem insertAll_eq_insertMissing {entries : List (MultiLevelKey × DataEntry)}
    {merged : SortedMap MultiLevelKey DataEntry}
    (hdistinct : entries.Pairwise (fun a b => a.1 < b.1))
    (hnew : ∀ e ∈ entries, merged.find? e.1 = none) :
    insertAll merged entries = insertMissing merged entries := by
  induction entries generalizing merged with
  | nil => rfl
  | cons e entries ih =>
      obtain ⟨hlt, htail⟩ := List.pairwise_cons.mp hdistinct
      have hfirst : (merged.find? e.1).isNone = true := by rw [hnew e List.mem_cons_self]; rfl
      have hrest : ∀ e' ∈ entries, (merged.insert e.1 e.2).find? e'.1 = none := by
        intro e' he'
        rw [SortedMap.find?_insert_ne _ _ (ne_of_lt (hlt e' he'))]
        exact hnew e' (List.mem_cons_of_mem _ he')
      have h := ih htail hrest
      rw [insertAll, insertMissing, List.foldl_cons, List.foldl_cons, hfirst]
      exact h

/-- The live entries of merged answers, as many as the query asks for. -/
def limited (query : RangeQuery) (merged : SortedMap MultiLevelKey DataEntry) :
    Result (List (MultiLevelKey × DataEntry)) :=
  .ok ((merged.entries.filter fun entry => !entry.2.deleted).take query.limit.toNat)

/-- **A scan merges the answers, newest first**; it has no result where an iterator
leaves a level. -/
theorem rangeScan_eq {e : LSMTreeEngine} (hopen : e.isOpen = true) (uninit : Uninit)
    (query : RangeQuery) :
    (e.rangeScan uninit query).1
      = (mergeLevels SortedMap.empty (e.scans uninit query)).map (limited query) := by
  rw [rangeScan, if_neg (by simp [hopen]), scans, e.memtable.rangeScan_eq]
  cases hwalk : query.walk e.memtable.data.entries with
  | none => rfl
  | some visited =>
      have hsorted : (visited.filter fun entry => !entry.2.deleted).Pairwise
          (fun a b => a.1 < b.1) :=
        (e.memtable.data.sorted.sublist (RangeQuery.walk_sublist hwalk)).filter _
      -- the first level overwrites where the others only fill gaps, but its map is empty
      have hfirst : insertAll SortedMap.empty (visited.filter fun entry => !entry.2.deleted)
          = insertMissing SortedMap.empty (visited.filter fun entry => !entry.2.deleted) :=
        insertAll_eq_insertMissing hsorted (fun _ _ => rfl)
      have hmerge : mergeLevels SortedMap.empty
          (some (.ok (visited.filter fun entry => !entry.2.deleted)) ::
            (e.immutableMemtable.toList.map (fun m => m.rangeScan query)
              ++ tableScans uninit e.dir query e.sstables))
          = (mergeLevels (insertMissing SortedMap.empty
                (visited.filter fun entry => !entry.2.deleted))
              (e.immutableMemtable.toList.map fun m => m.rangeScan query)).bind fun merged =>
                mergeLevels merged (tableScans uninit e.dir query e.sstables) := by
        rw [← mergeLevels_append]
        rfl
      rw [Option.map_some, hmerge]
      dsimp only
      rw [hfirst]
      cases e.immutableMemtable with
      | none =>
          dsimp only
          rw [scanSstables_eq]
          rfl
      | some m =>
          simp only [Option.toList_some, List.map_cons, List.map_nil]
          cases m.rangeScan query with
          | none => rfl
          | some scan =>
              simp only [Option.map_some, scanSstables_eq]
              rfl

/-- A closed engine answers no scan. -/
theorem rangeScan_of_closed {e : LSMTreeEngine} (hclosed : e.isOpen = false) (uninit : Uninit)
    (query : RangeQuery) :
    (e.rangeScan uninit query).1 = some (.error ⟨.storageError, "LSM tree is not open"⟩) := by
  rw [rangeScan, if_pos (by simp [hclosed])]

/-- Tables whose files are untouched scan as before. -/
theorem tableScans_congr {dir dir' : Directory} {ts : List SSTable}
    (h : ∀ t ∈ ts, dir'.find? t.filename = dir.find? t.filename) (uninit : Uninit)
    (query : RangeQuery) :
    tableScans uninit dir' query ts = tableScans uninit dir query ts := by
  rw [tableScans, tableScans]
  refine List.map_congr_left ?_
  intro t ht
  rw [SSTable.rangeScan_congr (h t (List.mem_reverse.mp ht))]

theorem tableScans_append (uninit : Uninit) (dir : Directory) (query : RangeQuery)
    (ts : List SSTable) (t : SSTable) :
    tableScans uninit dir query (ts ++ [t])
      = (t.rangeScan uninit dir query).1 :: tableScans uninit dir query ts := by
  simp [tableScans]

end LSMTreeEngine

end QcDatabase
