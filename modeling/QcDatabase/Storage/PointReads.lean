/-
# What a point read returns after a run

Runs of puts, removals and flushes on an engine opened on an empty directory.
`lastPut` is what a client may expect of `get(key)`: the entry of the last
successful put, unless a removal succeeded after it.

A deletion mark hides an older entry only inside the memory table.  As soon as a
live entry of the key has been flushed to a table, a removal does not hide it
any more: `get` passes over the mark like over an absent key and finds the entry
in the table.  `get_eq_lastPut_iff` gives the exact condition, in terms of the
calls (`keyHistory`).
-/
import QcDatabase.Storage.Runs

open LeveledMap

namespace QcDatabase.LSMTreeEngine

/-- What the last call that succeeded on `key` has left: the entry of a put, or
nothing after a removal. -/
def lastPut (uninit : Uninit) (key : MultiLevelKey) :
    Option DataEntry → LSMTreeEngine → List Call → Option DataEntry
  | last, _, [] => last
  | last, e, call :: calls =>
      let last :=
        match call with
        | .put key' entry =>
            if key' = key ∧ Result.isOk (e.put key' entry).1 = true then some entry else last
        | .remove key' now =>
            if key' = key ∧ Result.isOk (e.remove key' now).1 = true then none else last
        | _ => last
      lastPut uninit key last (e.step uninit call) calls

/-- A put of an entry that is not marked as deleted, a removal, or a flush that
succeeds. -/
def PutRemoveFlush (e : LSMTreeEngine) : Call → Prop
  | .put _ entry => entry.deleted = false
  | .remove _ _ => True
  | .flush _ second => e.FlushSucceeds second
  | .backgroundFlush _ second => e.FlushSucceeds second
  | .compact _ => False
  | .reopen _ _ _ _ => False

theorem PutRemoveFlush.succeeds {e : LSMTreeEngine} {call : Call} (h : e.PutRemoveFlush call) :
    e.Succeeds call := by
  cases call with
  | put key entry => trivial
  | remove key now => trivial
  | flush first second => exact h
  | backgroundFlush first second => exact h
  | compact merged => exact h.elim
  | reopen first second decoded applied => exact h.elim

/-- What a call means for one key: accepted puts and removals write it, flushes
store it. -/
def keyHistory (key : MultiLevelKey) (h : KeyHistory DataEntry) : Call → KeyHistory DataEntry
  | .put key' entry => if key' = key ∧ Accepted key' entry then h.write DataEntry.live entry else h
  | .remove key' now =>
      if key' = key then h.write DataEntry.live (deletionMark none now) else h
  | .flush _ _ => h.store
  | .backgroundFlush _ _ => h.store
  | .compact _ => h
  | .reopen _ _ _ _ => h

/-- The file name of a successful flush is fresh for the levels. -/
theorem Refines.fresh {e : LSMTreeEngine} {s : Levels} (h : Refines e s) {w : TableWrite}
    (hw : e.FlushSucceeds w) :
    s.current.entries ≠ [] → s.files.find? (e.filenameOf w) = none := by
  intro hne
  have hsize : e.memtable.size ≠ 0 := by
    rw [Ne, size_eq_zero_iff, h.memtable]
    exact hne
  have hdir := h.dir (e.filenameOf w)
  rw [(hw hsize).1] at hdir
  exact Option.map_eq_none_iff.mp hdir.symm

/-- **Step lemma.**  The levels keep following the history of a key, and the
history keeps the last successful put. -/
theorem follows_step {e : LSMTreeEngine} {s : Levels} (hr : Refines e s) {key : MultiLevelKey}
    {h : KeyHistory DataEntry} (hf : Follows DataEntry.live s key h) {call : Call}
    (hcall : e.PutRemoveFlush call) (uninit : Uninit) (calls : List Call) :
    Follows DataEntry.live (simulate e.dataDir s call) key (keyHistory key h call) ∧
      lastPut uninit key h.last e (call :: calls)
        = lastPut uninit key (keyHistory key h call).last (e.step uninit call) calls := by
  cases call with
  | put key' entry =>
      have hlive : entry.live = true := by
        rw [DataEntry.live, show entry.deleted = false from hcall]
        rfl
      -- the history counts a put iff the engine reports success
      have hok : Result.isOk (e.put key' entry).1 = true ↔ Accepted key' entry := by
        by_cases ha : Accepted key' entry
        · rw [(hr.put ha).1]
          exact iff_of_true rfl ha
        · rw [(hr.put_of_not_accepted ha).1]
          exact iff_of_false (by simp) ha
      rw [simulate, keyHistory, lastPut]
      simp only [hok]
      by_cases ha : Accepted key' entry
      · by_cases hkey : key' = key
        · subst hkey
          rw [if_pos ha, if_pos ⟨rfl, ha⟩, if_pos ⟨rfl, ha⟩, KeyHistory.write, if_pos hlive]
          have hwrite := hf.write entry
          rw [KeyHistory.write, if_pos hlive] at hwrite
          exact ⟨hwrite, rfl⟩
        · rw [if_pos ha, if_neg (fun hc => hkey hc.1), if_neg (fun hc => hkey hc.1)]
          exact ⟨hf.write_ne hkey entry, rfl⟩
      · rw [if_neg ha, if_neg (fun hc => ha hc.2), if_neg (fun hc => ha hc.2)]
        exact ⟨hf, rfl⟩
  | remove key' now =>
      have hok : Result.isOk (e.remove key' now).1 = true := by
        rw [(hr.remove key' now).1]
        rfl
      rw [simulate, keyHistory, lastPut]
      simp only [hok, and_true]
      by_cases hkey : key' = key
      · subst hkey
        rw [if_pos rfl, if_pos rfl]
        exact ⟨hf.write (deletionMark _ now), rfl⟩
      · rw [if_neg hkey, if_neg hkey]
        exact ⟨hf.write_ne hkey _, rfl⟩
  | flush first second => exact ⟨hf.store hr.wellFormed (hr.fresh hcall), rfl⟩
  | backgroundFlush first second => exact ⟨hf.store hr.wellFormed (hr.fresh hcall), rfl⟩
  | compact merged => exact hcall.elim
  | reopen first second decoded applied => exact hcall.elim

/-- **Run lemma.** -/
theorem follows_run {e : LSMTreeEngine} {s : Levels} (hr : Refines e s) {key : MultiLevelKey}
    {h : KeyHistory DataEntry} (hf : Follows DataEntry.live s key h) (uninit : Uninit)
    {calls : List Call} (hcalls : Along PutRemoveFlush uninit e calls) :
    ∃ s', Refines (e.run uninit calls) s' ∧
      Follows DataEntry.live s' key (calls.foldl (keyHistory key) h) ∧
      lastPut uninit key h.last e calls = (calls.foldl (keyHistory key) h).last := by
  induction calls generalizing e s h with
  | nil => exact ⟨s, hr, hf, rfl⟩
  | cons call calls ih =>
      obtain ⟨hcall, htail⟩ := hcalls
      obtain ⟨hf', hlast⟩ := follows_step hr hf hcall uninit calls
      obtain ⟨s', hr', hf'', hlast'⟩ := ih (hr.step uninit hcall.succeeds) hf' htail
      exact ⟨s', hr', hf'', hlast.trans hlast'⟩

/-- **`get` returns the last successful put exactly when that put is the last
successful call on the key, or no live entry of the key has been flushed.**  The
engine is opened on an empty directory. -/
theorem get_eq_lastPut_iff (dataDir : String) (maxSstables : ℕ) (uninit : Uninit)
    (decoded applied : ℕ → Timestamp) (calls : List Call) (key : MultiLevelKey)
    (hcalls : Along PutRemoveFlush uninit
      ((create dataDir SortedMap.empty none maxSstables).open uninit .readWrite decoded applied).2
      calls) :
    let e := ((create dataDir SortedMap.empty none maxSstables).open uninit .readWrite decoded applied).2
    ((e.run uninit calls).get uninit key).1 = found (lastPut uninit key none e calls) ↔
      (calls.foldl (keyHistory key) KeyHistory.init).last.isSome = true ∨
        (calls.foldl (keyHistory key) KeyHistory.init).storedLive = false := by
  intro e
  obtain ⟨s, hr, hf, hlast⟩ :=
    follows_run (refines_open_empty dataDir maxSstables uninit decoded applied) (follows_empty key)
      uninit hcalls
  change lastPut uninit key none e calls = _ at hlast
  rw [hr.get_eq uninit key, found_inj, hlast]
  exact hf.lookup_eq_last_iff

/-- A key that is put, flushed and put again, and one that is removed before it
is flushed. -/
def sampleCalls : List Call :=
  [.put ⟨[97], []⟩ ⟨[1], 1, 0, false⟩, .put ⟨[98], []⟩ ⟨[2], 1, 0, false⟩, .remove ⟨[98], []⟩ 5,
    .flush ⟨sampleTime 0, .written⟩ ⟨sampleTime 1, .written⟩, .put ⟨[97], []⟩ ⟨[3], 2, 0, false⟩]

theorem along_sampleCalls : Along PutRemoveFlush ⟨0, 0, 0, 0, 0⟩ sampleOpened sampleCalls :=
  ⟨rfl, rfl, trivial, fun _ => by decide +kernel, rfl, trivial⟩

/-- Both keys are read as they should be. -/
theorem get_eq_lastPut_sampleCalls :
    ((sampleOpened.run ⟨0, 0, 0, 0, 0⟩ sampleCalls).get ⟨0, 0, 0, 0, 0⟩ ⟨[97], []⟩).1
        = found (lastPut ⟨0, 0, 0, 0, 0⟩ ⟨[97], []⟩ none sampleOpened sampleCalls) ∧
      ((sampleOpened.run ⟨0, 0, 0, 0, 0⟩ sampleCalls).get ⟨0, 0, 0, 0, 0⟩ ⟨[98], []⟩).1
        = found (lastPut ⟨0, 0, 0, 0, 0⟩ ⟨[98], []⟩ none sampleOpened sampleCalls) :=
  ⟨(get_eq_lastPut_iff "d" 10 ⟨0, 0, 0, 0, 0⟩ (fun _ => 0) (fun _ => 0) sampleCalls _
      along_sampleCalls).mpr (by decide +kernel),
    (get_eq_lastPut_iff "d" 10 ⟨0, 0, 0, 0, 0⟩ (fun _ => 0) (fun _ => 0) sampleCalls _
      along_sampleCalls).mpr (by decide +kernel)⟩

/-- **A removed key comes back.**  A key is put and flushed, then removed with
result `OK`; `get` returns the entry of the put. -/
theorem get_ne_lastPut :
    let calls := [.put ⟨[97], []⟩ ⟨[1], 1, 0, false⟩,
      .flush ⟨sampleTime 0, .written⟩ ⟨sampleTime 1, .written⟩, .remove ⟨[97], []⟩ 5]
    Along PutRemoveFlush ⟨0, 0, 0, 0, 0⟩ sampleOpened calls ∧
      lastPut ⟨0, 0, 0, 0, 0⟩ ⟨[97], []⟩ none sampleOpened calls = none ∧
      ((sampleOpened.run ⟨0, 0, 0, 0, 0⟩ calls).get ⟨0, 0, 0, 0, 0⟩ ⟨[97], []⟩).1 = .ok ⟨[1], 1, 0, false⟩ :=
  ⟨⟨rfl, fun _ => by decide +kernel, trivial, trivial⟩, by decide +kernel, by decide +kernel⟩

end QcDatabase.LSMTreeEngine
