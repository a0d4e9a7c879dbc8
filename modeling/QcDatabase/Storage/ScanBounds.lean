/-
# The bounds of a scan

Every `range_scan` looks up the two bounds of the query in its level, and then
walks from the one to the other until the iterators are equal or the limit is
reached.  Two things are wrong with this, on every level alike:

* the upper bound of the end key is behind an entry with that key, which is
  visited therefore also if `inclusive_end` is false;
* if the start key is above the end key the walk may begin behind its end, and
  then only the limit stops it.

`respects_walk_iff` says exactly when a level shows neither, and
`boundsKept_iff` says it of all levels of an engine.
-/
import QcDatabase.Storage.ScanResults

open LeveledScan OrderedSearch

namespace QcDatabase

/-! ## The keys a query asks for -/

/-- The key is above the start key, or equal to it and that is allowed, and the same
for the end key. -/
def RangeQuery.Admits (query : RangeQuery) (key : MultiLevelKey) : Prop :=
  (query.startKey < key ∨ query.inclusiveStart = true ∧ query.startKey = key) ∧
    (key < query.endKey ∨ query.inclusiveEnd = true ∧ key = query.endKey)

instance (query : RangeQuery) (key : MultiLevelKey) : Decidable (query.Admits key) :=
  inferInstanceAs (Decidable (_ ∧ _))

/-- The scan has stayed inside its levels, and returns no keys but those asked for. -/
def RangeQuery.Respects (query : RangeQuery) :
    Option (Result (List (MultiLevelKey × DataEntry))) → Prop
  | none => False
  | some (.error _) => True
  | some (.ok result) => ∀ entry ∈ result, query.Admits entry.1

instance (query : RangeQuery) (scan : Option (Result (List (MultiLevelKey × DataEntry)))) :
    Decidable (query.Respects scan) :=
  match scan with
  | none => inferInstanceAs (Decidable False)
  | some (.error _) => inferInstanceAs (Decidable True)
  | some (.ok result) => inferInstanceAs (Decidable (∀ entry ∈ result, query.Admits entry.1))

/-- The levels on which a scan respects its bounds.

With the bounds in order the end key must be allowed, or not be a live one among the
entries visited.  With the start key above the end key, either no entry is between the
two, or there are as many entries from the start on as the limit says, and these are
deletion marks. -/
def RangeQuery.KeepsBounds (query : RangeQuery) (l : List (MultiLevelKey × DataEntry)) : Prop :=
  if query.startKey ≤ query.endKey then
    query.inclusiveEnd = true ∨
      ∀ entry ∈ (l.filter fun e => query.inside e.1).take query.limit.toNat,
        entry.1 = query.endKey → entry.2.deleted = true
  else
    (∀ entry ∈ l, query.afterStart entry.1 = true ∨ entry.1 ≤ query.endKey) ∨
      query.limit.toNat ≤ (l.filter fun e => query.afterStart e.1).length ∧
        ∀ entry ∈ (l.filter fun e => query.afterStart e.1).take query.limit.toNat,
          entry.2.deleted = true

/-! ## The walk over one level -/

variable {query : RangeQuery} {l : List (MultiLevelKey × DataEntry)}

theorem RangeQuery.admits_iff (query : RangeQuery) (key : MultiLevelKey) :
    query.Admits key ↔ query.afterStart key = true ∧
      (key < query.endKey ∨ query.inclusiveEnd = true ∧ key = query.endKey) := by
  rw [Admits, query.afterStart_iff]

theorem RangeQuery.le_of_afterStart {key : MultiLevelKey} (h : query.afterStart key = true) :
    query.startKey ≤ key := by
  rcases (query.afterStart_iff key).mp h with hlt | ⟨-, heq⟩
  · exact le_of_lt hlt
  · exact le_of_eq heq

/-- With the start key above the end key the walk begins behind its end or at it. -/
theorem RangeQuery.upperBound_le_first (hs : l.Pairwise fun a b => a.1 < b.1)
    (hlt : query.endKey < query.startKey) :
    upperBound Prod.fst l query.endKey ≤ query.first l ∧
      (query.first l = upperBound Prod.fst l query.endKey ↔
        ∀ entry ∈ l, query.afterStart entry.1 = true ∨ entry.1 ≤ query.endKey) := by
  have hbefore : (l.filter fun e => !query.afterStart e.1).filter (fun e => decide (e.1 ≤ query.endKey))
      = l.filter fun e => decide (e.1 ≤ query.endKey) := by
    rw [List.filter_filter]
    refine List.filter_congr fun e _ => ?_
    cases hafter : query.afterStart e.1 with
    | false => simp
    | true =>
        have hgt := lt_of_lt_of_le hlt (le_of_afterStart hafter)
        simpa using hgt
  -- so the end is the number of those among the entries before the start
  have hupper : upperBound Prod.fst l query.endKey
      = ((l.filter fun e => !query.afterStart e.1).filter
          fun e => decide (e.1 ≤ query.endKey)).length := by
    rw [hbefore, upperBound, takeWhile_eq_filter (pairwise_le hs query.endKey)]
  rw [query.first_eq hs, takeWhile_eq_filter (query.pairwise_not_afterStart hs), hupper]
  refine ⟨List.length_filter_le _ _, ?_⟩
  rw [eq_comm, List.length_filter_eq_length_iff]
  simp only [List.mem_filter, Bool.not_eq_true', decide_eq_true_eq, and_imp]
  refine forall₂_congr fun entry _ => ?_
  cases query.afterStart entry.1 <;> simp

/-- Where such a walk comes to: nothing, or as many entries from the start on as the
limit says, or beyond the last one. -/
theorem RangeQuery.walk_of_lt (hs : l.Pairwise fun a b => a.1 < b.1)
    (hlt : query.endKey < query.startKey) :
    ((∀ entry ∈ l, query.afterStart entry.1 = true ∨ entry.1 ≤ query.endKey) ∧
        query.walk l = some []) ∨
      (¬ (∀ entry ∈ l, query.afterStart entry.1 = true ∨ entry.1 ≤ query.endKey) ∧
        query.walk l =
          if query.limit.toNat ≤ (l.filter fun e => query.afterStart e.1).length then
            some ((l.filter fun e => query.afterStart e.1).take query.limit.toNat)
          else none) := by
  obtain ⟨hle, hiff⟩ := query.upperBound_le_first hs hlt
  by_cases heq : query.first l = upperBound Prod.fst l query.endKey
  · -- the loop ends before its first round
    refine Or.inl ⟨hiff.mp heq, ?_⟩
    have hstay := scanFrom_eq_some l (upperBound_le_length Prod.fst l query.endKey)
      (query.first l) query.limit.toNat (le_of_eq heq)
    rw [walk, hstay, heq, List.drop_eq_nil_of_le (List.length_take_le _ _), List.take_nil]
  · have hlength : query.first l ≤ l.length := by
      rw [query.first_eq hs]
      exact (List.takeWhile_prefix _).length_le
    have hrest : (l.drop (query.first l)).length = l.length - query.first l := List.length_drop
    rw [query.drop_first hs] at hrest
    refine Or.inr ⟨fun hall => heq (hiff.mpr hall), ?_⟩
    -- the end is behind the iterator already, so only the limit can stop the loop
    rw [walk, scanFrom_of_lt l _ (lt_of_le_of_ne hle (Ne.symm heq)) hlength, query.drop_first hs]
    refine if_congr ?_ rfl rfl
    omega

/-- Of the entries visited those are returned that are no deletion marks. -/
theorem RangeQuery.respects_visited_iff {visited : List (MultiLevelKey × DataEntry)} :
    query.Respects (some (.ok (visited.filter fun e => !e.2.deleted))) ↔
      ∀ entry ∈ visited, query.Admits entry.1 ∨ entry.2.deleted = true := by
  rw [Respects]
  constructor
  · intro hall entry hentry
    by_cases hdeleted : entry.2.deleted = true
    · exact Or.inr hdeleted
    · exact Or.inl (hall entry (List.mem_filter.mpr ⟨hentry, by simpa using hdeleted⟩))
  · intro hall entry hentry
    obtain ⟨hmem, hlive⟩ := List.mem_filter.mp hentry
    refine (hall entry hmem).resolve_right ?_
    intro hdeleted
    rw [hdeleted] at hlive
    cases hlive

/-- An entry inside the walk is admitted unless its key is the end key, and that is not
allowed. -/
theorem RangeQuery.admits_iff_of_inside {key : MultiLevelKey} (h : query.inside key = true) :
    query.Admits key ↔ query.inclusiveEnd = true ∨ key ≠ query.endKey := by
  obtain ⟨hafter, hend⟩ := (query.inside_iff key).mp h
  rw [query.admits_iff, and_iff_right hafter]
  rcases eq_or_lt_of_le hend with heq | hlt
  · simp [heq]
  · simp [hlt, ne_of_lt hlt]

/-- With the start key above the end key no key is admitted. -/
theorem RangeQuery.not_admits_of_lt (hlt : query.endKey < query.startKey) (key : MultiLevelKey) :
    ¬ query.Admits key := by
  rw [query.admits_iff]
  rintro ⟨hafter, hend⟩
  have hgt : query.endKey < key := lt_of_lt_of_le hlt (le_of_afterStart hafter)
  rcases hend with hless | ⟨-, heq⟩
  · exact lt_asymm hgt hless
  · exact ne_of_gt hgt heq

/-- **When a walk respects its bounds.** -/
theorem RangeQuery.respects_walk_iff (hs : l.Pairwise fun a b => a.1 < b.1) :
    query.Respects ((query.walk l).map fun visited =>
      .ok (visited.filter fun e => !e.2.deleted)) ↔ query.KeepsBounds l := by
  rw [KeepsBounds]
  split_ifs with hle
  · -- every entry visited is inside, so only the end key may be one too many
    rw [query.walk_of_le l hle, query.visited_eq hs hle, Option.map_some, respects_visited_iff]
    have hvisited : ∀ entry ∈ (l.filter fun e => query.inside e.1).take query.limit.toNat,
        query.Admits entry.1 ↔ query.inclusiveEnd = true ∨ entry.1 ≠ query.endKey := by
      intro entry hentry
      exact admits_iff_of_inside (List.mem_filter.mp (List.mem_of_mem_take hentry)).2
    constructor
    · intro hall
      by_cases hincl : query.inclusiveEnd = true
      · exact Or.inl hincl
      · refine Or.inr fun entry hentry hkey => ?_
        rcases hall entry hentry with hadmits | hdeleted
        · rcases (hvisited entry hentry).mp hadmits with htrue | hne
          · exact absurd htrue hincl
          · exact absurd hkey hne
        · exact hdeleted
    · intro hkept entry hentry
      rw [hvisited entry hentry]
      rcases hkept with hincl | hmarks
      · exact Or.inl (Or.inl hincl)
      · by_cases hkey : entry.1 = query.endKey
        · exact Or.inr (hmarks entry hentry hkey)
        · exact Or.inl (Or.inr hkey)
  · have hlt := not_le.mp hle
    rcases query.walk_of_lt hs hlt with ⟨hgap, hwalk⟩ | ⟨hgap, hwalk⟩
    · rw [hwalk]
      exact iff_of_true (List.forall_mem_nil _) (Or.inl hgap)
    · rw [hwalk, or_iff_right hgap]
      split_ifs with hlimit
      · -- no entry is admitted, so all those visited have to be deletion marks
        rw [Option.map_some, respects_visited_iff, and_iff_right hlimit]
        refine forall₂_congr fun entry _ => ?_
        exact or_iff_right (query.not_admits_of_lt hlt entry.1)
      · exact iff_of_false id fun h => hlimit h.1

/-- Of a memory table this holds without more. -/
theorem MemTable.respects_rangeScan_iff (m : MemTable) (query : RangeQuery) :
    query.Respects (m.rangeScan query) ↔ query.KeepsBounds m.data.entries := by
  rw [m.rangeScan_eq]
  exact RangeQuery.respects_walk_iff m.data.sorted

/-- Of a table it holds while the table has its file. -/
theorem SSTable.TableOf.respects_rangeScan_iff {dir : Directory} {t : SSTable}
    {m : SortedMap MultiLevelKey DataEntry} (h : SSTable.TableOf dir t m) (uninit : Uninit)
    (query : RangeQuery) :
    query.Respects (t.rangeScan uninit dir query).1 ↔ query.KeepsBounds m.entries := by
  rw [h.rangeScan_walk]
  exact RangeQuery.respects_walk_iff m.sorted

namespace LSMTreeEngine

/-! ## The engine -/

/-- The scan of the engine, and that of each of its levels, respects the bounds. -/
def BoundsKept (uninit : Uninit) (e : LSMTreeEngine) (query : RangeQuery) : Prop :=
  (∀ scan ∈ e.scans uninit query, query.Respects scan) ∧
    query.Respects (e.rangeScan uninit query).1

/-- Scans that respect the bounds have found what is sorted and admitted. -/
theorem exists_found_of_respects {query : RangeQuery}
    (levels : List (SortedMap MultiLevelKey DataEntry))
    (hall : ∀ m ∈ levels, query.Respects ((query.walk m.entries).map fun visited =>
      .ok (visited.filter fun entry => !entry.2.deleted))) :
    ∃ found : List (List (MultiLevelKey × DataEntry)),
      (levels.map fun m => (query.walk m.entries).map fun visited =>
          .ok (visited.filter fun entry => !entry.2.deleted))
        = found.map (fun l => some (Except.ok (ε := Failure) l)) ∧
        ∀ l ∈ found, l.Pairwise (fun a b => a.1 < b.1) ∧ ∀ entry ∈ l, query.Admits entry.1 := by
  induction levels with
  | nil => exact ⟨[], rfl, List.forall_mem_nil _⟩
  | cons m levels ih =>
      rw [List.forall_mem_cons] at hall
      obtain ⟨found, hfound, hadmits⟩ := ih hall.2
      rcases hwalk : query.walk m.entries with _ | visited
      · rw [hwalk] at hall
        exact hall.1.elim
      · rw [hwalk] at hall
        refine ⟨visited.filter (fun entry => !entry.2.deleted) :: found, ?_, ?_⟩
        · rw [List.map_cons, List.map_cons, hwalk, hfound]
          rfl
        · refine List.forall_mem_cons.mpr ⟨⟨?_, hall.1⟩, hadmits⟩
          exact (m.sorted.sublist (RangeQuery.walk_sublist hwalk)).filter _

/-- What the levels respect the merge respects. -/
theorem respects_rangeScan {e : LSMTreeEngine} {levels : List (SortedMap MultiLevelKey DataEntry)}
    (h : e.HasLevels levels) (uninit : Uninit) {query : RangeQuery}
    (hall : ∀ scan ∈ e.scans uninit query, query.Respects scan) :
    query.Respects (e.rangeScan uninit query).1 := by
  cases hopen : e.isOpen with
  | false =>
      rw [rangeScan_of_closed hopen]
      trivial
  | true =>
      rw [h.scans_eq, List.forall_mem_map] at hall
      obtain ⟨found, hfound, hadmits⟩ := exists_found_of_respects levels hall
      rw [rangeScan_eq hopen, h.scans_eq, hfound, mergeLevels_ok, ← merge, Option.map_some]
      intro entry hentry
      have hmem := (List.mem_filter.mp (List.mem_of_mem_take hentry)).1
      have hfind := SortedMap.find?_eq_some_of_mem _ hmem
      rw [find?_merge] at hfind
      obtain ⟨l, hl, hvalue⟩ := List.exists_of_findSome?_eq_some hfind
      exact (hadmits l hl).2 _ ((valueAt_eq_some_iff (hadmits l hl).1).mp hvalue)

/-- **When an engine respects the bounds of a scan.** -/
theorem boundsKept_iff {uninit : Uninit} {e : LSMTreeEngine} (h : ReachedSafely uninit e) :
    ∃ levels, e.HasLevels levels ∧ ∀ query : RangeQuery,
      BoundsKept uninit e query ↔ ∀ m ∈ levels, query.KeepsBounds m.entries := by
  obtain ⟨levels, hlevels⟩ := h.intact.exists_hasLevels
  refine ⟨levels, hlevels, fun query => ?_⟩
  have hall : (∀ scan ∈ e.scans uninit query, query.Respects scan) ↔
      ∀ m ∈ levels, query.KeepsBounds m.entries := by
    rw [hlevels.scans_eq, List.forall_mem_map]
    exact forall₂_congr fun m _ => RangeQuery.respects_walk_iff m.sorted
  rw [← hall, BoundsKept]
  exact and_iff_left_of_imp fun hscans => respects_rangeScan hlevels uninit hscans

/-- A query whose end key is between the keys of `leveledEngine`. -/
theorem boundsKept_leveledEngine :
    ∃ levels, leveledEngine.HasLevels levels ∧
      ∀ m ∈ levels, RangeQuery.KeepsBounds ⟨⟨[97], []⟩, ⟨[97], [1]⟩, 10, true, false⟩ m.entries := by
  obtain ⟨levels, hlevels, hiff⟩ := boundsKept_iff reachedSafely_leveledEngine
  refine ⟨levels, hlevels, (hiff _).mp ⟨?_, ?_⟩⟩ <;> decide +kernel

/-- An exclusive end key that is there, and bounds that are not in order. -/
theorem not_boundsKept_leveledEngine :
    ReachedSafely ⟨0, 0, 0, 0, 0⟩ leveledEngine ∧
      ¬ BoundsKept ⟨0, 0, 0, 0, 0⟩ leveledEngine ⟨⟨[97], []⟩, ⟨[98], []⟩, 10, true, false⟩ ∧
      ¬ BoundsKept ⟨0, 0, 0, 0, 0⟩ leveledEngine ⟨⟨[101], []⟩, ⟨[97], []⟩, 10, true, true⟩ := by
  refine ⟨reachedSafely_leveledEngine, fun hkept => ?_, fun hkept => ?_⟩
  · exact absurd hkept.2 (by decide +kernel)
  · exact absurd hkept.2 (by decide +kernel)

end LSMTreeEngine

end QcDatabase
