/-
# The memory that a table counts

`MemTable` does not add up the sizes of its entries; it keeps a counter by differences: a put
adds the size of the new entry and takes away that of the entry it replaces, a removal adds
the size of a deletion mark where the key was absent, and leaves the counter alone where the
value stays under the mark.

After any calls the counter is the sum over the entries, as a 64-bit number
(`memoryAccounting_exact`): it is the sum itself as long as the entries fit the address space.
-/
import QcDatabase.Lib.SortedMapSums
import QcDatabase.Storage.MemTable

namespace QcDatabase

/-- The bytes that are counted for an entry. -/
def entrySize (key : MultiLevelKey) (entry : DataEntry) : ℕ :=
  key.toString.length + entry.value.length + DataEntry.sizeOf

/-- The calls that change a table. -/
inductive MemTableCall where
  | put (key : MultiLevelKey) (entry : DataEntry)
  | remove (key : MultiLevelKey) (now : Timestamp)
  | clear

namespace MemTable

/-- The table after a call. -/
def after (m : MemTable) : MemTableCall → MemTable
  | .put key entry => (m.put key entry).2
  | .remove key now => (m.remove key now).2
  | .clear => m.clear

/-- The sum of the sizes of the entries, deletion marks included. -/
def contentSize (m : MemTable) : ℕ := m.data.total entrySize

/-- The counter is the sum, as a 64-bit number. -/
def Accounted (m : MemTable) : Prop := m.memoryUsage = UInt64.ofNat m.contentSize

/-! ## One call -/

theorem accounted_empty : empty.Accounted := rfl

/-- A counter kept by differences follows the sum. -/
theorem ofNat_add_sub {content content' new old : ℕ} (h : content' + old = content + new) :
    UInt64.ofNat content + UInt64.ofNat new - UInt64.ofNat old = UInt64.ofNat content' := by
  rw [← UInt64.ofNat_add, ← h, UInt64.ofNat_add, UInt64.add_sub_cancel]

theorem Accounted.put {m : MemTable} (h : m.Accounted) (key : MultiLevelKey) (entry : DataEntry) :
    (m.put key entry).2.Accounted := by
  rw [MemTable.put]
  split_ifs
  · exact h
  · exact h
  · have htotal := m.data.total_insert entrySize key entry
    show m.memoryUsage + UInt64.ofNat (entrySize key entry) - _
      = UInt64.ofNat ((m.data.insert key entry).total entrySize)
    rw [h]
    rcases hold : m.data.find? key with _ | old
    · rw [hold] at htotal
      exact ofNat_add_sub htotal
    · rw [hold] at htotal
      exact ofNat_add_sub htotal

theorem Accounted.remove {m : MemTable} (h : m.Accounted) (key : MultiLevelKey) (now : Timestamp) :
    (m.remove key now).2.Accounted := by
  have htotal := m.data.total_insert entrySize key (deletionMark (m.data.find? key) now)
  rw [MemTable.remove]
  rcases hold : m.data.find? key with _ | old
  · -- the mark has no value
    rw [hold] at htotal
    show m.memoryUsage + UInt64.ofNat (entrySize key (deletionMark none now))
      = UInt64.ofNat ((m.data.insert key (deletionMark none now)).total entrySize)
    rw [h, ← UInt64.ofNat_add]
    exact congrArg UInt64.ofNat htotal.symm
  · -- the value stays
    rw [hold] at htotal
    show m.memoryUsage
      = UInt64.ofNat ((m.data.insert key (deletionMark (some old) now)).total entrySize)
    rw [h]
    exact congrArg UInt64.ofNat (Nat.add_right_cancel htotal).symm

theorem Accounted.after {m : MemTable} (h : m.Accounted) (call : MemTableCall) :
    (m.after call).Accounted := by
  cases call with
  | put key entry => exact h.put key entry
  | remove key now => exact h.remove key now
  | clear => exact accounted_empty

/-! ## Any calls -/

theorem Accounted.foldl {m : MemTable} (h : m.Accounted) (calls : List MemTableCall) :
    (calls.foldl MemTable.after m).Accounted := by
  induction calls generalizing m with
  | nil => exact h
  | cons call calls ih => exact ih (h.after call)

theorem Accounted.toNat_memoryUsage {m : MemTable} (h : m.Accounted)
    (hfits : m.contentSize < UInt64.size) : m.memoryUsage.toNat = m.contentSize := by
  rw [h]
  exact UInt64.toNat_ofNat_of_lt' hfits

/-- What a put takes away is in the counter, to which the new entry was added before. -/
theorem Accounted.old_le {m : MemTable} (h : m.Accounted) {key : MultiLevelKey}
    {entry old : DataEntry} (hold : m.data.find? key = some old)
    (hfits : m.contentSize + entrySize key entry < UInt64.size) :
    UInt64.ofNat (entrySize key old) ≤ m.memoryUsage + UInt64.ofNat (entrySize key entry) := by
  have hle : entrySize key old ≤ m.contentSize := SortedMap.le_total entrySize _ hold
  rw [h, ← UInt64.ofNat_add, UInt64.le_iff_toNat_le, UInt64.toNat_ofNat_of_lt' hfits,
    UInt64.toNat_ofNat_of_lt' (by omega)]
  omega

/-- **The counter is the sum of the sizes of the entries** after any calls, as a number of 64
bits.  Where the sum fits, it is that sum and the one that `should_flush` compares with the
limit, and where the entry of a put fits as well, the subtraction does not underflow. -/
theorem memoryAccounting_exact (calls : List MemTableCall) :
    (calls.foldl after empty).memoryUsage
        = UInt64.ofNat (calls.foldl after empty).contentSize ∧
      ((calls.foldl after empty).contentSize < UInt64.size →
        (calls.foldl after empty).memoryUsage.toNat = (calls.foldl after empty).contentSize ∧
        ((calls.foldl after empty).shouldFlush = true ↔
          Config.memtableSizeLimit ≤ (calls.foldl after empty).contentSize)) ∧
      ∀ key entry old, (calls.foldl after empty).data.find? key = some old →
        (calls.foldl after empty).contentSize + entrySize key entry < UInt64.size →
        UInt64.ofNat (entrySize key old)
          ≤ (calls.foldl after empty).memoryUsage + UInt64.ofNat (entrySize key entry) := by
  have h := accounted_empty.foldl calls
  refine ⟨h, fun hfits => ⟨h.toNat_memoryUsage hfits, ?_⟩, fun _ _ _ => h.old_le⟩
  rw [shouldFlush, decide_eq_true_iff, h.toNat_memoryUsage hfits]

/-- A value of three bytes, one of one byte over it, its removal and that of an absent key. -/
def fourCalls : List MemTableCall :=
  [.put ⟨[97], [98]⟩ ⟨[1, 2, 3], 1, 0, false⟩, .put ⟨[97], [98]⟩ ⟨[1], 2, 0, false⟩,
    .remove ⟨[97], [98]⟩ 5, .remove ⟨[97], [99]⟩ 6]

theorem memoryAccounting_fourCalls :
    (fourCalls.foldl after empty).contentSize = 119 ∧
      (fourCalls.foldl after empty).memoryUsage.toNat = (fourCalls.foldl after empty).contentSize ∧
      UInt64.ofNat (entrySize ⟨[97], [98]⟩ ⟨[1], 2, 5, true⟩)
        ≤ (fourCalls.foldl after empty).memoryUsage
          + UInt64.ofNat (entrySize ⟨[97], [98]⟩ ⟨[7], 3, 9, false⟩) :=
  ⟨by decide, ((memoryAccounting_exact fourCalls).2.1 (by decide)).1,
    (memoryAccounting_exact fourCalls).2.2 _ _ _ (by decide) (by decide)⟩

end MemTable

end QcDatabase
