/-
# What compaction does to point reads

`compact_sstables` takes the two oldest tables out of the list, merges nothing
of them, and hands the empty result to `SSTable::write`, which rejects it: the
call ends in the error exit and the two tables stay out of the list.
`compactSstables_eq` says so, and `get_compactSstables_iff` says for which keys
this can be seen: those that only the two oldest tables answer for.
-/
import QcDatabase.Storage.Flush

namespace QcDatabase.LSMTreeEngine

/-- **Compaction drops the two oldest tables** and returns the error of the
rejected write. -/
theorem compactSstables_eq {e : LSMTreeEngine} {sstable1 sstable2 : SSTable}
    {sstables : List SSTable} (h : e.sstables = sstable1 :: sstable2 :: sstables) (w : TableWrite) :
    e.compactSstables w = (.error ⟨.invalidArgument, "Cannot write empty data"⟩,
      { e with sstables := sstables }) := by
  rw [compactSstables, h]
  rfl

/-- Fewer than two tables are left alone. -/
theorem compactSstables_of_lt {e : LSMTreeEngine} (h : e.sstables.length < 2) (w : TableWrite) :
    e.compactSstables w = (.ok (), e) := by
  rw [compactSstables]
  split
  next h' =>
    rw [h', List.length_cons, List.length_cons] at h
    omega
  next => rfl

/-! ## Which level answers -/

theorem isSome_toOption {α : Type} (r : Result α) : r.toOption.isSome = Result.isOk r := by
  cases r <;> rfl

/-- A table of the list answers iff one of the listed answers is there. -/
theorem isSome_tableAnswers_iff (uninit : Uninit) (dir : Directory) (key : MultiLevelKey)
    (ts : List SSTable) :
    ((tableAnswers uninit dir key ts).findSome? id).isSome = true ↔
      ∃ t ∈ ts, Result.isOk (t.read uninit dir key).1 = true := by
  rw [List.findSome?_isSome_iff]
  constructor
  · rintro ⟨a, ha, hsome⟩
    obtain ⟨t, ht, rfl⟩ := List.mem_map.mp ha
    exact ⟨t, List.mem_reverse.mp ht, by rw [← isSome_toOption]; exact hsome⟩
  · rintro ⟨t, ht, hok⟩
    refine ⟨_, List.mem_map_of_mem (List.mem_reverse.mpr ht), ?_⟩
    rw [← isSome_toOption] at hok
    exact hok

/-- The first answer of an open engine, level by level. -/
theorem findSome?_answers (e : LSMTreeEngine) (uninit : Uninit) (key : MultiLevelKey) :
    (e.answers uninit key).findSome? id =
      (e.memtable.get key).toOption.or ((e.immutableMemtable.bind fun m => (m.get key).toOption).or
        ((tableAnswers uninit e.dir key e.sstables).findSome? id)) := by
  rw [answers, List.findSome?_cons, List.findSome?_append, MemTable.toOption_get]
  cases e.immutableMemtable with
  | none => cases liveEntry e.memtable.data key <;> rfl
  | some m =>
      rw [Option.bind_some, MemTable.toOption_get, Option.toList_some, List.map_cons, List.map_nil]
      cases liveEntry e.memtable.data key <;> cases liveEntry m.data key <;> rfl

/-- The last of four choices can be dropped iff it is not needed. -/
theorem or_drop_last_iff {α : Type*} (a b c d : Option α) :
    a.or (b.or c) = a.or (b.or (c.or d)) ↔
      a.isSome = true ∨ b.isSome = true ∨ c.isSome = true ∨ d = none := by
  cases a <;> cases b <;> cases c <;> cases d <;> simp

/-- **Compaction is invisible to `get(key)` exactly when the key does not depend
on the two oldest tables**: the engine is closed, there are fewer than two
tables, a newer level answers, or neither of the two answers. -/
theorem get_compactSstables_iff (e : LSMTreeEngine) (uninit : Uninit) (key : MultiLevelKey)
    (w : TableWrite) :
    ((e.compactSstables w).2.get uninit key).1 = (e.get uninit key).1 ↔
      e.isOpen = false ∨ e.sstables.length < 2 ∨
        Result.isOk (e.memtable.get key) = true ∨
        (∃ m, e.immutableMemtable = some m ∧ Result.isOk (m.get key) = true) ∨
        (∃ t ∈ e.sstables.drop 2, Result.isOk (t.read uninit e.dir key).1 = true) ∨
        ∀ t ∈ e.sstables.take 2, Result.isOk (t.read uninit e.dir key).1 = false := by
  by_cases hlen : e.sstables.length < 2
  · rw [compactSstables_of_lt hlen]
    exact iff_of_true rfl (.inr (.inl hlen))
  obtain ⟨t₁, t₂, ts, hts⟩ : ∃ t₁ t₂ ts, e.sstables = t₁ :: t₂ :: ts := by
    match h : e.sstables with
    | [] => simp [h] at hlen
    | [t] => simp [h] at hlen
    | t₁ :: t₂ :: ts => exact ⟨t₁, t₂, ts, rfl⟩
  rw [compactSstables_eq hts]
  dsimp only
  have hclosed : ({ e with sstables := ts } : LSMTreeEngine).isOpen = e.isOpen := rfl
  rcases Bool.eq_false_or_eq_true e.isOpen with hopen | hopen
  · -- the two oldest tables are asked last, so an answer from elsewhere hides their loss
    have htables : tableAnswers uninit e.dir key e.sstables
        = tableAnswers uninit e.dir key ts ++ tableAnswers uninit e.dir key [t₁, t₂] := by
      rw [hts]
      simp [tableAnswers]
    have himm : (∃ m, e.immutableMemtable = some m ∧ Result.isOk (m.get key) = true) ↔
        (e.immutableMemtable.bind fun m => (m.get key).toOption).isSome = true := by
      cases e.immutableMemtable with
      | none => simp
      | some m => simp [isSome_toOption]
    have hold : (∀ t ∈ [t₁, t₂], Result.isOk (t.read uninit e.dir key).1 = false) ↔
        (tableAnswers uninit e.dir key [t₁, t₂]).findSome? id = none := by
      rw [← Option.not_isSome_iff_eq_none, isSome_tableAnswers_iff]
      simp
    rw [get_eq (hclosed.trans hopen), get_eq hopen, found_inj, findSome?_answers,
      findSome?_answers]
    dsimp only
    rw [htables, List.findSome?_append, or_drop_last_iff, isSome_toOption, himm, hts,
      List.take_succ_cons, List.take_succ_cons, List.take_zero, hold, List.drop_succ_cons,
      List.drop_succ_cons, List.drop_zero, ← isSome_tableAnswers_iff]
    rw [hts] at hlen
    simp only [hopen, hlen, Bool.true_eq_false, false_or]
  · rw [get_of_closed (hclosed.trans hopen), get_of_closed hopen]
    exact iff_of_true rfl (.inl hopen)

/-! ## A key that compaction loses -/

/-- Two keys, each flushed to a table of its own. -/
def sampleTwoTables : LSMTreeEngine :=
  let e := (sampleOpened.put ⟨[97], []⟩ ⟨[1], 1, 0, false⟩).2
  let e := (e.flush ⟨sampleTime 0, .written⟩ ⟨sampleTime 1, .written⟩).2
  let e := (e.put ⟨[98], []⟩ ⟨[2], 1, 0, false⟩).2
  (e.flush ⟨sampleTime 2, .written⟩ ⟨sampleTime 3, .written⟩).2

/-- **Compaction loses a key** that was read before. -/
theorem get_compactSstables_ne :
    ((sampleTwoTables.compactSstables ⟨sampleTime 4, .written⟩).2.get ⟨0, 0, 0, 0, 0⟩ ⟨[97], []⟩).1
      ≠ (sampleTwoTables.get ⟨0, 0, 0, 0, 0⟩ ⟨[97], []⟩).1 := by
  decide +kernel

end QcDatabase.LSMTreeEngine
