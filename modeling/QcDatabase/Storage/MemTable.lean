/-
# The memory table (`src/storage/memtable.cpp`)

An ordered map from keys to entries together with a running count of the memory
it uses.  A removed key stays in the map, with its entry marked as deleted: it
hides older versions of the key as long as both are in the same map.

`rangeScan` walks the map between two iterators.  A walk that steps past the
last entry has no defined result in the source; the model answers `none`
there, and `rangeScan_of_le` says that a query whose bounds are in order never
does so.
-/
import QcDatabase.Common.Types
import QcDatabase.Lib.OrderedSearch
import QcDatabase.Lib.SortedMap

open OrderedSearch

namespace QcDatabase

/-- `sizeof(DataEntry)`: a string, two 64-bit words and a flag, padded. -/
def DataEntry.sizeOf : ℕ := 56

/-- `MemTable`. -/
structure MemTable where
  data : SortedMap MultiLevelKey DataEntry
  memoryUsage : UInt64
  deriving DecidableEq

namespace MemTable

/-- `MemTable::MemTable`. -/
def empty : MemTable := ⟨SortedMap.empty, 0⟩

/-- `MemTable::get`. -/
def get (m : MemTable) (key : MultiLevelKey) : Result DataEntry :=
  match m.data.find? key with
  | none => .error ⟨.notFound, "Key not found in memtable"⟩
  | some entry =>
      if entry.deleted then .error ⟨.notFound, "Key is marked as deleted"⟩
      else .ok entry

/-- `MemTable::put`. -/
def put (m : MemTable) (key : MultiLevelKey) (entry : DataEntry) : Result Unit × MemTable :=
  if Config.maxKeySize < key.toString.length then
    (.error ⟨.invalidArgument, "Key size exceeds limit"⟩, m)
  else if Config.maxValueSize < entry.value.length then
    (.error ⟨.invalidArgument, "Value size exceeds limit"⟩, m)
  else
    let newEntrySize := UInt64.ofNat (key.toString.length + entry.value.length + DataEntry.sizeOf)
    let oldEntrySize :=
      match m.data.find? key with
      | none => 0
      | some old =>
          UInt64.ofNat (key.toString.length + old.value.length + DataEntry.sizeOf)
    (.ok (), { data := m.data.insert key entry
               memoryUsage := m.memoryUsage + newEntrySize - oldEntrySize })

/-- `MemTable::remove`, at clock reading `now`. -/
def remove (m : MemTable) (key : MultiLevelKey) (now : Timestamp) : Result Unit × MemTable :=
  match m.data.find? key with
  | none =>
      -- a key that is absent gets a deletion mark as well
      let deleteEntry := { DataEntry.default now with deleted := true, timestamp := now }
      (.ok (), { data := m.data.insert key deleteEntry
                 memoryUsage := m.memoryUsage
                   + UInt64.ofNat (key.toString.length + DataEntry.sizeOf) })
  | some entry =>
      (.ok (), { m with data := m.data.insert key { entry with deleted := true, timestamp := now } })

/-- `MemTable::range_scan`; `none` where the iterator would leave the map. -/
def rangeScan (m : MemTable) (query : RangeQuery) :
    Option (Result (List (MultiLevelKey × DataEntry))) :=
  let data := m.data.entries
  let startIt := lowerBound Prod.fst data query.startKey
  let endIt := upperBound Prod.fst data query.endKey
  let startIt :=
    if !query.inclusiveStart && decide (data[startIt]?.map Prod.fst = some query.startKey) then
      startIt + 1
    else startIt
  let endIt :=
    if query.inclusiveEnd && decide (data[endIt]?.map Prod.fst = some query.endKey) then endIt + 1
    else endIt
  (scanFrom data endIt startIt query.limit.toNat).map fun visited =>
    .ok (visited.filter fun e => !e.2.deleted)

/-- `MemTable::size`. -/
def size (m : MemTable) : ℕ := m.data.size

/-- `MemTable::should_flush`. -/
def shouldFlush (m : MemTable) : Bool := decide (Config.memtableSizeLimit ≤ m.memoryUsage.toNat)

/-- `MemTable::get_all_data`. -/
def getAllData (m : MemTable) : SortedMap MultiLevelKey DataEntry := m.data

/-- `MemTable::clear`. -/
def clear (_ : MemTable) : MemTable := empty

end MemTable

/-! ## What one operation does to the map -/

/-- The entries `MemTable::put` accepts under a key. -/
def Accepted (key : MultiLevelKey) (entry : DataEntry) : Prop :=
  key.toString.length ≤ Config.maxKeySize ∧ entry.value.length ≤ Config.maxValueSize

instance (key : MultiLevelKey) (entry : DataEntry) : Decidable (Accepted key entry) :=
  inferInstanceAs (Decidable (_ ∧ _))

/-- The live entry a map holds for a key, if it holds one. -/
def liveEntry (data : SortedMap MultiLevelKey DataEntry) (key : MultiLevelKey) :
    Option DataEntry :=
  (data.find? key).filter fun entry => !entry.deleted

/-- The entry that marks a key as deleted, over the entry it had before. -/
def deletionMark (old : Option DataEntry) (now : Timestamp) : DataEntry :=
  ⟨(old.map DataEntry.value).getD [], (old.map DataEntry.version).getD 0, now, true⟩

namespace MemTable

/-- `get` answers with live entries only. -/
theorem get_eq_ok_iff (m : MemTable) (key : MultiLevelKey) (entry : DataEntry) :
    m.get key = .ok entry ↔ liveEntry m.data key = some entry := by
  rw [get, liveEntry]
  cases h : m.data.find? key with
  | none => simp
  | some old =>
      rw [Option.filter_some]
      dsimp only
      cases hd : old.deleted <;> simp

/-- An accepted entry replaces what the map holds for its key. -/
theorem put_of_accepted {m : MemTable} {key : MultiLevelKey} {entry : DataEntry}
    (h : Accepted key entry) :
    (m.put key entry).1 = .ok () ∧ (m.put key entry).2.data = m.data.insert key entry := by
  rw [put, if_neg (by rw [not_lt]; exact h.1), if_neg (by rw [not_lt]; exact h.2)]
  exact ⟨rfl, rfl⟩

/-- An entry that is not accepted changes nothing. -/
theorem put_of_not_accepted {m : MemTable} {key : MultiLevelKey} {entry : DataEntry}
    (h : ¬ Accepted key entry) :
    Result.isOk (m.put key entry).1 = false ∧ (m.put key entry).2 = m := by
  rw [put]
  split_ifs with hk hv
  · exact ⟨rfl, rfl⟩
  · exact ⟨rfl, rfl⟩
  · exact absurd ⟨not_lt.mp hk, not_lt.mp hv⟩ h

/-- `remove` leaves a deletion mark, whether the key was there or not. -/
theorem remove_eq (m : MemTable) (key : MultiLevelKey) (now : Timestamp) :
    (m.remove key now).1 = .ok () ∧
      (m.remove key now).2.data = m.data.insert key (deletionMark (m.data.find? key) now) := by
  rw [remove]
  cases h : m.data.find? key with
  | none => exact ⟨rfl, rfl⟩
  | some entry => exact ⟨rfl, rfl⟩

end MemTable

/-! ## Scans -/

/-- Where a scan of a sorted list begins. -/
def RangeQuery.first (query : RangeQuery) (l : List (MultiLevelKey × DataEntry)) : ℕ :=
  if !query.inclusiveStart &&
      decide (l[lowerBound Prod.fst l query.startKey]?.map Prod.fst = some query.startKey) then
    lowerBound Prod.fst l query.startKey + 1
  else lowerBound Prod.fst l query.startKey

/-- The entries a scan of a sorted list visits: from the first one inside the
bounds on, `limit` of them at most, deletion marks included. -/
def RangeQuery.visited (query : RangeQuery) (l : List (MultiLevelKey × DataEntry)) :
    List (MultiLevelKey × DataEntry) :=
  ((l.take (upperBound Prod.fst l query.endKey)).drop (query.first l)).take query.limit.toNat

/-- The entries a scan of a sorted list returns. -/
def RangeQuery.scanned (query : RangeQuery) (l : List (MultiLevelKey × DataEntry)) :
    List (MultiLevelKey × DataEntry) :=
  (query.visited l).filter fun e => !e.2.deleted

/-- With its bounds in order, a scan begins before it ends. -/
theorem RangeQuery.first_le (query : RangeQuery) (l : List (MultiLevelKey × DataEntry))
    (hle : query.startKey ≤ query.endKey) :
    query.first l ≤ upperBound Prod.fst l query.endKey := by
  rw [first]
  split_ifs with h
  · simp only [Bool.and_eq_true, decide_eq_true_eq] at h
    obtain ⟨x, hx, hkey⟩ := Option.map_eq_some_iff.mp h.2
    rw [← hkey] at hx ⊢
    exact Nat.succ_le_of_lt (lowerBound_lt_upperBound Prod.fst (by rw [hkey]; exact hle) hx)
  · exact lowerBound_le_upperBound Prod.fst l hle

/-- The adjustment of the end iterator for an inclusive end never applies: the
entry at the upper bound of a key has a greater key. -/
theorem map_fst_upperBound_ne (l : List (MultiLevelKey × DataEntry)) (k : MultiLevelKey) :
    l[upperBound Prod.fst l k]?.map Prod.fst ≠ some k := by
  intro h
  obtain ⟨x, hx, hkey⟩ := Option.map_eq_some_iff.mp h
  have hlt := lt_of_getElem?_upperBound Prod.fst hx
  rw [hkey] at hlt
  exact absurd hlt (lt_irrefl k)

/-- The walk of a scan over a sorted list; `none` where the iterator leaves the list. -/
def RangeQuery.walk (query : RangeQuery) (l : List (MultiLevelKey × DataEntry)) :
    Option (List (MultiLevelKey × DataEntry)) :=
  scanFrom l (upperBound Prod.fst l query.endKey) (query.first l) query.limit.toNat

/-- With its bounds in order, the walk comes to its end. -/
theorem RangeQuery.walk_of_le (query : RangeQuery) (l : List (MultiLevelKey × DataEntry))
    (hle : query.startKey ≤ query.endKey) : query.walk l = some (query.visited l) :=
  scanFrom_eq_some l (upperBound_le_length Prod.fst l query.endKey) (query.first l)
    query.limit.toNat (query.first_le l hle)

theorem RangeQuery.walk_sublist {query : RangeQuery}
    {l visited : List (MultiLevelKey × DataEntry)} (h : query.walk l = some visited) :
    visited.Sublist l :=
  (prefix_of_scanFrom h).sublist.trans (List.drop_sublist _ _)

/-- A scan returns the live entries of its walk. -/
theorem MemTable.rangeScan_eq (m : MemTable) (query : RangeQuery) :
    m.rangeScan query = (query.walk m.data.entries).map fun visited =>
      .ok (visited.filter fun e => !e.2.deleted) := by
  have hend : (query.inclusiveEnd && decide
      (m.data.entries[upperBound Prod.fst m.data.entries query.endKey]?.map Prod.fst
        = some query.endKey)) = false := by
    rw [decide_eq_false (map_fst_upperBound_ne _ _), Bool.and_false]
  rw [rangeScan]
  simp only [hend, Bool.false_eq_true, if_false]
  rfl

/-- **A scan whose bounds are in order stays inside the map.** -/
theorem MemTable.rangeScan_of_le (m : MemTable) (query : RangeQuery)
    (hle : query.startKey ≤ query.endKey) :
    m.rangeScan query = some (.ok (query.scanned m.data.entries)) := by
  rw [m.rangeScan_eq, query.walk_of_le _ hle]
  rfl

end QcDatabase
