/-
# What a scan returns

A scan whose bounds are in order visits the keys of `RangeQuery.inside` on each
level, and merges what it finds (`HasLevels.rangeScan_eq`); so the library on
scans of levels says what comes out:

* with a limit that no level reaches, the entries that `get` answers with
  (`rangeScan_agrees_get`);
* with a smaller one the beginning of these, unless some level stops too early:
  each level counts its deletion marks towards the limit
  (`rangeScan_prefix_iff`).
-/
import QcDatabase.Lib.LeveledScan
import QcDatabase.Storage.IntactTables
import QcDatabase.Storage.Refinement

open LeveledMap LeveledScan OrderedSearch

namespace QcDatabase

/-! ## The keys a scan visits -/

/-- The keys from the start of a query on. -/
def RangeQuery.afterStart (query : RangeQuery) (key : MultiLevelKey) : Bool :=
  decide (query.startKey < key) || (query.inclusiveStart && decide (query.startKey = key))

/-- The keys between the bounds of a query.  The end key belongs to them, whatever
`inclusiveEnd` says. -/
def RangeQuery.inside (query : RangeQuery) (key : MultiLevelKey) : Bool :=
  query.afterStart key && decide (key ≤ query.endKey)

theorem RangeQuery.afterStart_iff (query : RangeQuery) (key : MultiLevelKey) :
    query.afterStart key = true ↔
      query.startKey < key ∨ query.inclusiveStart = true ∧ query.startKey = key := by
  simp [afterStart]

theorem RangeQuery.inside_iff (query : RangeQuery) (key : MultiLevelKey) :
    query.inside key = true ↔ query.afterStart key = true ∧ key ≤ query.endKey := by
  simp [inside]

theorem RangeQuery.le_of_not_afterStart {query : RangeQuery} {key : MultiLevelKey}
    (h : query.afterStart key = false) : key ≤ query.startKey := by
  by_contra hlt
  rw [(query.afterStart_iff key).mpr (Or.inl (not_le.mp hlt))] at h
  cases h

variable {l : List (MultiLevelKey × DataEntry)}

/-- A sorted list is partitioned by the start of a query. -/
theorem RangeQuery.pairwise_not_afterStart (query : RangeQuery)
    (hs : l.Pairwise fun a b => a.1 < b.1) :
    l.Pairwise fun a b => (!query.afterStart b.1) = true → (!query.afterStart a.1) = true := by
  refine hs.imp fun hab hb => ?_
  rw [Bool.not_eq_true'] at hb ⊢
  have hlt := lt_of_lt_of_le hab (le_of_not_afterStart hb)
  rw [Bool.eq_false_iff, Ne, afterStart_iff]
  rintro (hgt | ⟨-, heq⟩)
  · exact lt_asymm hlt hgt
  · exact ne_of_gt hlt heq

/-- A sorted list is partitioned by the end of a query. -/
theorem pairwise_le (hs : l.Pairwise fun a b => a.1 < b.1) (key : MultiLevelKey) :
    l.Pairwise fun a b => decide (b.1 ≤ key) = true → decide (a.1 ≤ key) = true :=
  hs.imp fun hab hb => by simpa using le_trans (le_of_lt hab) (by simpa using hb)

/-- A scan begins with the first entry that belongs to it. -/
theorem RangeQuery.first_eq (query : RangeQuery) (hs : l.Pairwise fun a b => a.1 < b.1) :
    query.first l = (l.takeWhile fun e => !query.afterStart e.1).length := by
  induction l with
  | nil => simp [first, lowerBound]
  | cons c l ih =>
      obtain ⟨hc, hl⟩ := List.pairwise_cons.mp hs
      rcases lt_trichotomy c.1 query.startKey with hlt | heq | hgt
      · have hskip : (!query.afterStart c.1) = true := by
          simp [afterStart, not_lt.mpr (le_of_lt hlt), ne_of_gt hlt]
        have hlower : lowerBound Prod.fst (c :: l) query.startKey
            = lowerBound Prod.fst l query.startKey + 1 := by
          rw [lowerBound, List.takeWhile_cons_of_pos (by simpa using hlt), List.length_cons,
            ← lowerBound]
        rw [List.takeWhile_cons, if_pos hskip, List.length_cons, ← ih hl, first, first, hlower,
          List.getElem?_cons_succ]
        split_ifs <;> rfl
      · have hlower : lowerBound Prod.fst (c :: l) query.startKey = 0 := by
          rw [lowerBound, List.takeWhile_cons_of_neg (by simp [heq])]
          rfl
        rw [first, hlower, List.getElem?_cons_zero]
        cases hincl : query.inclusiveStart with
        | true =>
            rw [List.takeWhile_cons_of_neg (by simp [afterStart, hincl, heq])]
            simp
        | false =>
            -- the start key is skipped, and all further keys are above it
            have hrest : (l.takeWhile fun e => !query.afterStart e.1) = [] := by
              rw [takeWhile_eq_filter (query.pairwise_not_afterStart hl), List.filter_eq_nil_iff]
              intro e he
              simp [afterStart, heq ▸ hc e he]
            rw [List.takeWhile_cons_of_pos (by simp [afterStart, hincl, heq]), hrest]
            simp [heq]
      · have hlower : lowerBound Prod.fst (c :: l) query.startKey = 0 := by
          rw [lowerBound, List.takeWhile_cons_of_neg (by simpa using le_of_lt hgt)]
          rfl
        rw [first, hlower, List.getElem?_cons_zero,
          List.takeWhile_cons_of_neg (by simp [afterStart, hgt])]
        simp [ne_of_gt hgt]

theorem RangeQuery.drop_first (query : RangeQuery) (hs : l.Pairwise fun a b => a.1 < b.1) :
    l.drop (query.first l) = l.filter fun e => query.afterStart e.1 := by
  rw [query.first_eq hs, drop_takeWhile_eq_filter (query.pairwise_not_afterStart hs)]
  simp

theorem take_upperBound (hs : l.Pairwise fun a b => a.1 < b.1) (key : MultiLevelKey) :
    l.take (upperBound Prod.fst l key) = l.filter fun e => decide (e.1 ≤ key) := by
  rw [upperBound, ← takeWhile_eq_filter (pairwise_le hs key)]
  exact (List.prefix_iff_eq_take.mp (List.takeWhile_prefix _)).symm

/-- **The entries visited are those inside**, as many as the limit allows. -/
theorem RangeQuery.visited_eq (query : RangeQuery) (hs : l.Pairwise fun a b => a.1 < b.1)
    (hle : query.startKey ≤ query.endKey) :
    query.visited l = (l.filter fun e => query.inside e.1).take query.limit.toNat := by
  have hsorted := hs.filter fun e => decide (e.1 ≤ query.endKey)
  -- what is skipped at the start is not above the end
  have hfirst : query.first l = query.first (l.filter fun e => decide (e.1 ≤ query.endKey)) := by
    rw [query.first_eq hs, query.first_eq hsorted,
      takeWhile_eq_filter (query.pairwise_not_afterStart hs),
      takeWhile_eq_filter (query.pairwise_not_afterStart hsorted), List.filter_filter]
    refine congrArg List.length (List.filter_congr fun e _ => ?_)
    cases hafter : query.afterStart e.1 with
    | true => rfl
    | false => simpa using le_trans (le_of_not_afterStart hafter) hle
  rw [visited, take_upperBound hs, hfirst, query.drop_first hsorted, List.filter_filter]
  rfl

/-- A level gives the live ones of the entries it visits. -/
theorem RangeQuery.scanned_eq (query : RangeQuery) (m : SortedMap MultiLevelKey DataEntry)
    (hle : query.startKey ≤ query.endKey) :
    query.scanned m.entries = scanLevel query.inside DataEntry.live query.limit.toNat m := by
  rw [scanned, query.visited_eq m.sorted hle]
  rfl

namespace LSMTreeEngine

/-! ## All levels -/

theorem mergeLevels_ok (merged : SortedMap MultiLevelKey DataEntry)
    (found : List (List (MultiLevelKey × DataEntry))) :
    mergeLevels merged (found.map fun l => some (.ok l)) = some (found.foldl fillIn merged) := by
  induction found generalizing merged with
  | nil => rfl
  | cons l found ih => exact ih (fillIn merged l)

variable {e : LSMTreeEngine} {levels : List (SortedMap MultiLevelKey DataEntry)}

/-- **A scan whose bounds are in order is a scan of the levels.** -/
theorem HasLevels.rangeScan_eq (h : e.HasLevels levels) (hopen : e.isOpen = true)
    (uninit : Uninit) {query : RangeQuery} (hle : query.startKey ≤ query.endKey) :
    (e.rangeScan uninit query).1 = some (.ok ((merge (levels.map
      (scanLevel query.inside DataEntry.live query.limit.toNat))).entries.take
        query.limit.toNat)) := by
  have hscans : e.scans uninit query
      = (levels.map (scanLevel query.inside DataEntry.live query.limit.toNat)).map
          fun l => some (.ok l) := by
    rw [h.scans_eq, List.map_map]
    refine List.map_congr_left fun m _ => ?_
    rw [query.walk_of_le _ hle, Function.comp_apply, ← query.scanned_eq m hle]
    rfl
  rw [LSMTreeEngine.rangeScan_eq hopen, hscans, mergeLevels_ok, ← merge,
    Option.map_some, limited, List.filter_eq_self.mpr]
  exact fun entry hentry => live_of_mem_merge hentry

/-- The same when no level reaches the limit. -/
theorem HasLevels.rangeScan_of_entryCount_le (h : e.HasLevels levels) (hopen : e.isOpen = true)
    (uninit : Uninit) {query : RangeQuery} (hle : query.startKey ≤ query.endKey)
    (hlimit : e.entryCount ≤ query.limit.toNat) :
    (e.rangeScan uninit query).1
      = some (.ok (visible query.inside DataEntry.live levels).entries) := by
  have hsizes : ∀ m ∈ levels, m.size ≤ query.limit.toNat :=
    fun m hm => (h.size_le m hm).trans hlimit
  have htotal : (visible query.inside DataEntry.live levels).entries.length
      ≤ query.limit.toNat := by
    rw [← merge_scanLevel_of_size_le hsizes]
    exact (size_merge_scanLevel_le _ levels).trans (h.sum_size ▸ hlimit)
  rw [h.rangeScan_eq hopen uninit hle, merge_scanLevel_of_size_le hsizes,
    List.take_of_length_le htotal]

/-! ## Scans and point reads -/

/-- The scan returns the entries between the two keys that point reads answer with, in
increasing key order; where it reports an error, every point read reports it too. -/
def ScanAgrees (uninit : Uninit) (e : LSMTreeEngine) (query : RangeQuery) : Prop :=
  match (e.rangeScan uninit query).1 with
  | none => False
  | some (.error f) => ∀ key, (e.get uninit key).1 = .error f
  | some (.ok result) =>
      result.Pairwise (fun a b => a.1 < b.1) ∧
        ∀ key entry, (key, entry) ∈ result ↔
          query.startKey ≤ key ∧ key ≤ query.endKey ∧ (e.get uninit key).1 = .ok entry

/-- **Scans and point reads agree**: the scan has its bounds in order, the start key
belongs to it, and no level reaches its limit. -/
theorem rangeScan_agrees_get {uninit : Uninit} {e : LSMTreeEngine} (h : ReachedSafely uninit e)
    {query : RangeQuery} (hle : query.startKey ≤ query.endKey)
    (hstart : query.inclusiveStart = true) (hlimit : e.entryCount ≤ query.limit.toNat) :
    ScanAgrees uninit e query := by
  obtain ⟨levels, hlevels⟩ := h.intact.exists_hasLevels
  rw [ScanAgrees]
  cases hopen : e.isOpen with
  | false =>
      rw [rangeScan_of_closed hopen]
      exact fun key => get_of_closed hopen uninit key
  | true =>
      rw [hlevels.rangeScan_of_entryCount_le hopen uninit hle hlimit]
      refine ⟨SortedMap.sorted _, ?_⟩
      intro key entry
      have hfind := find?_visible query.inside DataEntry.live levels key
      have hinside : query.inside key = true ↔ query.startKey ≤ key ∧ key ≤ query.endKey := by
        rw [query.inside_iff, query.afterStart_iff, hstart, le_iff_lt_or_eq (a := query.startKey)]
        simp
      have hget : (e.get uninit key).1 = .ok entry ↔
          (levels.findSome? fun m => liveAt DataEntry.live m key) = some entry := by
        rw [hlevels.get_eq hopen]
        exact found_inj (b := some entry)
      rw [← and_assoc, hget, ← hinside]
      constructor
      · intro hmem
        rw [SortedMap.find?_eq_some_of_mem _ hmem] at hfind
        split_ifs at hfind with hkey
        exact ⟨hkey, hfind.symm⟩
      · rintro ⟨hkey, hlive⟩
        rw [if_pos hkey, hlive] at hfind
        exact SortedMap.mem_of_find?_eq_some _ hfind

/-- A flushed table with `a` and `b`; since then `b` and `c` were removed and `d` written. -/
def leveledCalls : List PublicCall :=
  [.open .readWrite (fun _ => 0) (fun _ => 0), .put ⟨[97], []⟩ ⟨[1], 1, 0, false⟩,
    .put ⟨[98], []⟩ ⟨[2], 1, 0, false⟩, .flush ⟨sampleTime 1, .written⟩ ⟨sampleTime 2, .written⟩,
    .remove ⟨[98], []⟩ 5, .remove ⟨[99], []⟩ 6, .put ⟨[100], []⟩ ⟨[3], 1, 0, false⟩]

/-- The engine after these calls. -/
def leveledEngine : LSMTreeEngine :=
  (create "d" SortedMap.empty none 10).callRun ⟨0, 0, 0, 0, 0⟩ leveledCalls

theorem reachedSafely_leveledEngine : ReachedSafely ⟨0, 0, 0, 0, 0⟩ leveledEngine := by
  refine ⟨"d", SortedMap.empty, none, 10, leveledCalls, ⟨?_, trivial, trivial, ?_, trivial, trivial,
    trivial, trivial⟩, rfl⟩
  · exact fun _ => List.forall_mem_nil _
  · exact fun _ => cleanFlush_of_noImmutable (by decide +kernel) (by decide +kernel)
      (by decide +kernel) (by decide +kernel)

theorem rangeScan_agrees_leveledEngine :
    ScanAgrees ⟨0, 0, 0, 0, 0⟩ leveledEngine ⟨⟨[97], []⟩, ⟨[100], []⟩, 5, true, true⟩ :=
  rangeScan_agrees_get reachedSafely_leveledEngine (by decide +kernel) rfl (by decide +kernel)

/-! ## Limits -/

/-- Each of the first visible entries inside the bounds, as many as the limit says, is
the first live one of its key that the levels come to: a level comes to a key if fewer
entries than the limit, deletion marks included, are inside the bounds before it. -/
def LevelsReach (levels : List (SortedMap MultiLevelKey DataEntry)) (query : RangeQuery) : Prop :=
  ∀ entry ∈ (visible query.inside DataEntry.live levels).entries.take query.limit.toNat,
    levels.findSome? (fun m => reachedAt query.inside DataEntry.live query.limit.toNat m entry.1)
      = some entry.2

/-- **When a limited scan is the beginning of the unlimited one.** -/
theorem rangeScan_prefix_iff {uninit : Uninit} {e : LSMTreeEngine} (h : ReachedSafely uninit e) :
    ∃ levels, e.HasLevels levels ∧ ∀ (query : RangeQuery) (unbounded : UInt32),
      query.startKey ≤ query.endKey → e.entryCount ≤ unbounded.toNat →
        ((e.rangeScan uninit query).1
            = (e.rangeScan uninit { query with limit := unbounded }).1.map
              (Except.map (List.take query.limit.toNat)) ↔
          (e.isOpen = true → LevelsReach levels query)) := by
  obtain ⟨levels, hlevels⟩ := h.intact.exists_hasLevels
  refine ⟨levels, hlevels, ?_⟩
  intro query unbounded hle hunbounded
  cases hopen : e.isOpen with
  | false =>
      rw [rangeScan_of_closed hopen, rangeScan_of_closed hopen]
      simp [Except.map]
  | true =>
      have hall : (e.rangeScan uninit { query with limit := unbounded }).1
          = some (.ok (visible query.inside DataEntry.live levels).entries) :=
        hlevels.rangeScan_of_entryCount_le hopen uninit hle hunbounded
      rw [hlevels.rangeScan_eq hopen uninit hle, hall, Option.map_some, Except.map,
        Option.some.injEq, Except.ok.injEq, imp_iff_right rfl]
      exact take_scan_eq_iff query.limit.toNat levels

/-- With limit 3 the memory table of `leveledEngine` comes to its live entry. -/
theorem rangeScan_prefix_leveledEngine :
    ∃ levels, leveledEngine.HasLevels levels ∧
      LevelsReach levels ⟨⟨[97], []⟩, ⟨[100], []⟩, 3, true, true⟩ := by
  obtain ⟨levels, hlevels, hiff⟩ := rangeScan_prefix_iff reachedSafely_leveledEngine
  refine ⟨levels, hlevels, ?_⟩
  refine (hiff ⟨⟨[97], []⟩, ⟨[100], []⟩, 3, true, true⟩ 100 ?_ ?_).mp ?_ ?_ <;> decide +kernel

/-- From `c` on, with limit 1, it comes to the deletion mark of `c` only. -/
theorem rangeScan_not_prefix :
    ReachedSafely ⟨0, 0, 0, 0, 0⟩ leveledEngine ∧ leveledEngine.entryCount ≤ 100 ∧
      (leveledEngine.rangeScan ⟨0, 0, 0, 0, 0⟩ ⟨⟨[99], []⟩, ⟨[100], []⟩, 1, true, true⟩).1
        ≠ (leveledEngine.rangeScan ⟨0, 0, 0, 0, 0⟩ ⟨⟨[99], []⟩, ⟨[100], []⟩, 100, true, true⟩).1.map
          (Except.map (List.take 1)) :=
  ⟨reachedSafely_leveledEngine, by decide +kernel, by decide +kernel⟩

end LSMTreeEngine

end QcDatabase
