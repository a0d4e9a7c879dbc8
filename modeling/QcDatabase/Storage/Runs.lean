/-
# Runs of the engine

Sequences of calls on an engine, with what the environment decides in them.
`step` makes one call and `Along P` says that every call of a run satisfies `P`
in the state it is made in.  `Succeeds` is the good weather: table writes
succeed under fresh names, compaction finds too few tables to do anything, and
an engine is only closed and opened again while its keys survive flattening.

`simulate` makes the same call on the map on levels, and `Refines.step` says
that the two stay related.
-/
import QcDatabase.Storage.Compaction
import QcDatabase.Storage.Refinement

open LeveledMap

namespace QcDatabase.LSMTreeEngine

/-- A call on an engine; a background flush is a call of `flush_memtable` by the
background thread. -/
inductive Call where
  | put (key : MultiLevelKey) (entry : DataEntry)
  | remove (key : MultiLevelKey) (now : Timestamp)
  | flush (first second : TableWrite)
  | backgroundFlush (first second : TableWrite)
  | compact (merged : TableWrite)
  | reopen (first second : TableWrite) (decoded applied : ℕ → Timestamp)

/-- The engine after a call. -/
def step (e : LSMTreeEngine) (uninit : Uninit) : Call → LSMTreeEngine
  | .put key entry => (e.put key entry).2
  | .remove key now => (e.remove key now).2
  | .flush first second => (e.flush first second).2
  | .backgroundFlush first second => (e.flushMemtable first second).2
  | .compact merged => (e.compact merged).2
  | .reopen first second decoded applied => e.reopen uninit first second decoded applied

/-- The engine after a sequence of calls. -/
def run (e : LSMTreeEngine) (uninit : Uninit) (calls : List Call) : LSMTreeEngine :=
  calls.foldl (fun e call => e.step uninit call) e

/-- Every call of the sequence satisfies `P` in the state it is made in. -/
def Along (P : LSMTreeEngine → Call → Prop) (uninit : Uninit) : LSMTreeEngine → List Call → Prop
  | _, [] => True
  | e, call :: calls => P e call ∧ Along P uninit (e.step uninit call) calls

/-- Every key the engine holds in memory or in the index of a table survives
flattening. -/
def KeysColonFree (e : LSMTreeEngine) : Prop :=
  (∀ key ∈ e.memtable.data.keys, key.ColonFree) ∧
    ∀ t ∈ e.sstables, ∀ entry ∈ t.index, entry.key.ColonFree

/-- Nothing goes wrong in this call. -/
def Succeeds (e : LSMTreeEngine) : Call → Prop
  | .put _ _ => True
  | .remove _ _ => True
  | .flush _ second => e.FlushSucceeds second
  | .backgroundFlush _ second => e.FlushSucceeds second
  | .compact _ => e.sstables.length < 2
  | .reopen _ second _ _ => e.FlushSucceeds second ∧ e.KeysColonFree

/-- The same call on the map on levels. -/
def simulate (dataDir : String) (s : Levels) : Call → Levels
  | .put key entry => if Accepted key entry then s.write key entry else s
  | .remove key now => s.write key (deletionMark (s.current.find? key) now)
  | .flush _ second => s.store (generateSstableFilename dataDir second.now)
  | .backgroundFlush _ second => s.store (generateSstableFilename dataDir second.now)
  | .compact _ => s
  | .reopen _ second _ _ => (s.store (generateSstableFilename dataDir second.now)).reload

/-! ## The data directory is fixed -/

theorem flushMemtable_dataDir (e : LSMTreeEngine) (first second : TableWrite) :
    (e.flushMemtable first second).2.dataDir = e.dataDir := by
  obtain ⟨_, _, _, _, _, -, heq⟩ := e.flushMemtable_frame first second
  rw [heq]

theorem close_dataDir (e : LSMTreeEngine) (first second : TableWrite) :
    (e.close first second).2.dataDir = e.dataDir := by
  rw [close]
  by_cases hopen : (!e.isOpen) = true
  · rw [if_pos hopen]
  · rw [if_neg hopen]
    by_cases hsize : e.memtable.size ≠ 0
    · rw [if_pos hsize]
      exact flushMemtable_dataDir e first second
    · rw [if_neg hsize]

theorem open_dataDir (e : LSMTreeEngine) (uninit : Uninit) (access : LogAccess)
    (decoded applied : ℕ → Timestamp) :
    (e.open uninit access decoded applied).2.dataDir = e.dataDir := by
  rcases e.open_cases uninit access decoded applied with ⟨_, _, heq⟩ | ⟨_, _, -, heq⟩ <;>
    rw [heq]
  rfl

/-! ## Simulation -/

/-- Closing flushes the current level. -/
theorem Refines.close {e : LSMTreeEngine} {s : Levels} (h : Refines e s) (first : TableWrite)
    {second : TableWrite} (hw : e.FlushSucceeds second) :
    ∃ e', Refines e' (s.store (e.filenameOf second)) ∧
      (e.close first second).2 = { e' with wal := e'.wal.close.2, isOpen := false } := by
  rw [LSMTreeEngine.close, if_neg (by simp [h.isOpen])]
  dsimp only
  split_ifs with hsize
  · exact ⟨_, (h.flushMemtable first hw).2, rfl⟩
  · have hempty : s.current.entries = [] := by
      rw [← h.memtable, ← size_eq_zero_iff]
      exact not_not.mp hsize
    rw [LeveledMap.store, if_pos hempty]
    exact ⟨e, h, rfl⟩

/-- The keys of all levels survive flattening. -/
theorem Refines.colonFree {e : LSMTreeEngine} {s : Levels} (h : Refines e s)
    (hcolon : e.KeysColonFree) {name : String} {m : SortedMap MultiLevelKey DataEntry}
    (hm : s.files.find? name = some m) : ∀ key ∈ m.keys, key.ColonFree := by
  have hname : name ∈ s.order := (h.wellFormed name).mpr (by rw [hm]; rfl)
  obtain ⟨t, ht, m', hm', heq⟩ : ∃ t ∈ e.sstables, TableAt s t name := by
    obtain ⟨i, hi, rfl⟩ := List.mem_iff_getElem.mp hname
    have hlen := h.sstables.length_eq
    exact ⟨e.sstables[i], List.getElem_mem _, h.sstables.get (by omega) hi⟩
  rw [hm] at hm'
  obtain rfl := Option.some.inj hm'
  intro key hkey
  rw [SortedMap.keys, ← SSTable.map_key_indexOf] at hkey
  obtain ⟨entry, hentry, rfl⟩ := List.mem_map.mp hkey
  exact hcolon.2 t ht entry (by rw [heq]; exact hentry)

theorem Refines.reopen {e : LSMTreeEngine} {s : Levels} (h : Refines e s) (uninit : Uninit)
    (first : TableWrite) {second : TableWrite} (hw : e.FlushSucceeds second)
    (hcolon : e.KeysColonFree) (decoded applied : ℕ → Timestamp) :
    Refines (e.reopen uninit first second decoded applied)
      (s.store (e.filenameOf second)).reload := by
  obtain ⟨e', hrefines, hclose⟩ := h.close first hw
  rw [LSMTreeEngine.reopen, hclose]
  refine refines_open _ ?_ hrefines.dir hrefines.fits hrefines.extension ?_ uninit decoded applied
  · exact hrefines.log.close_bytes
  · have hold : ∀ name m, s.files.find? name = some m → ∀ key ∈ m.keys, key.ColonFree :=
      fun name m hm => h.colonFree hcolon hm
    rw [LeveledMap.store]
    split_ifs with hempty
    · exact hold
    · exact SortedMap.forall_find?_insert hold (h.memtable ▸ hcolon.1)

/-- **Step lemma.**  A call of the engine is simulated by the call on the
levels. -/
theorem Refines.step {e : LSMTreeEngine} {s : Levels} (h : Refines e s) (uninit : Uninit)
    {call : Call} (hcall : e.Succeeds call) :
    Refines (e.step uninit call) (simulate e.dataDir s call) := by
  cases call with
  | put key entry =>
      show Refines (e.put key entry).2 (if Accepted key entry then s.write key entry else s)
      split_ifs with ha
      · exact (h.put ha).2
      · exact (h.put_of_not_accepted ha).2
  | remove key now => exact (h.remove key now).2
  | flush first second => exact (h.flush first hcall).2
  | backgroundFlush first second => exact (h.flushMemtable first hcall).2
  | compact merged =>
      show Refines (e.compact merged).2 s
      rw [compact, if_neg (by simp [h.isOpen]), compactSstables_of_lt hcall]
      exact h
  | reopen first second decoded applied =>
      exact h.reopen uninit first hcall.1 hcall.2 decoded applied

theorem Refines.step_dataDir {e : LSMTreeEngine} {s : Levels} (h : Refines e s) (uninit : Uninit)
    {call : Call} (hcall : e.Succeeds call) : (e.step uninit call).dataDir = e.dataDir := by
  cases call with
  | put key entry =>
      show (e.put key entry).2.dataDir = e.dataDir
      rw [LSMTreeEngine.put]
      split_ifs
      · rfl
      · rcases e.wal.append ⟨WALEntryType.put, key, entry, 0⟩ with ⟨_ | _, wal⟩ <;> rfl
  | remove key now =>
      show (e.remove key now).2.dataDir = e.dataDir
      rw [LSMTreeEngine.remove]
      split_ifs
      · rfl
      · dsimp only
        rcases e.wal.append _ with ⟨_ | _, wal⟩ <;> rfl
  | flush first second =>
      have hflush := flushMemtable_dataDir e first second
      show (e.flush first second).2.dataDir = e.dataDir
      rw [LSMTreeEngine.flush]
      split_ifs
      · rfl
      · rcases hf : e.flushMemtable first second with ⟨_ | _, e'⟩
        all_goals
          rw [hf] at hflush
          exact hflush
  | backgroundFlush first second => exact flushMemtable_dataDir e first second
  | compact merged =>
      show (e.compact merged).2.dataDir = e.dataDir
      rw [compact, if_neg (by simp [h.isOpen]), compactSstables_of_lt hcall]
  | reopen first second decoded applied =>
      show (e.reopen uninit first second decoded applied).dataDir = e.dataDir
      rw [LSMTreeEngine.reopen, open_dataDir]
      exact close_dataDir e first second

end QcDatabase.LSMTreeEngine
