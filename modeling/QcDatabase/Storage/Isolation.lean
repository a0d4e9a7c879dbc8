/-
# Keys do not interfere

Two histories of an engine, one of which has an additional `put` on a key `k₁`,
compared on the reads of every other key.  As long as nothing goes wrong in
either of them (`Succeeds`), the reads agree (`get_isolated`): the levels of the
two engines agree off `k₁` after every call.

What can go wrong on the side of the keys is the reload: a table file holds keys
in flattened form, and a key whose primary part contains `':'` comes back as
another key (`get_not_isolated`).
-/
import QcDatabase.Storage.PointReads

open LeveledMap

namespace QcDatabase.LSMTreeEngine

/-- The same call on levels that agree off `k₁`. -/
theorem agreeOff_simulate {k₁ : MultiLevelKey} {s s' : Levels} (h : AgreeOff k₁ s s')
    {e' : LSMTreeEngine} (hr' : Refines e' s') {call : Call} (hcall' : e'.Succeeds call) :
    AgreeOff k₁ (simulate e'.dataDir s call) (simulate e'.dataDir s' call) := by
  cases call with
  | put key entry =>
      rw [simulate, simulate]
      split_ifs
      · exact h.write fun _ => rfl
      · exact h
  | remove key now =>
      refine h.write ?_
      intro hkey
      rw [h.current key hkey]
  | flush first second => exact h.store hr'.wellFormed (hr'.fresh hcall')
  | backgroundFlush first second => exact h.store hr'.wellFormed (hr'.fresh hcall')
  | compact merged => exact h
  | reopen first second decoded applied =>
      exact (h.store hr'.wellFormed (hr'.fresh hcall'.1)).reload

/-- **Step and run lemma.**  The same calls keep two engines in agreement. -/
theorem agreeOff_run {k₁ : MultiLevelKey} {s s' : Levels} (h : AgreeOff k₁ s s')
    {e e' : LSMTreeEngine} (hr : Refines e s) (hr' : Refines e' s')
    (hdir : e.dataDir = e'.dataDir) (uninit : Uninit) {calls : List Call}
    (hcalls : Along Succeeds uninit e calls) (hcalls' : Along Succeeds uninit e' calls) :
    ∃ t t', AgreeOff k₁ t t' ∧ Refines (e.run uninit calls) t ∧ Refines (e'.run uninit calls) t' := by
  induction calls generalizing e e' s s' with
  | nil => exact ⟨s, s', h, hr, hr'⟩
  | cons call calls ih =>
      obtain ⟨hcall, htail⟩ := hcalls
      obtain ⟨hcall', htail'⟩ := hcalls'
      have hstep := agreeOff_simulate h hr' hcall'
      refine ih ?_ (hr.step uninit hcall) (hr'.step uninit hcall') ?_ htail htail'
      · rwa [hdir]
      · rw [hr.step_dataDir uninit hcall, hr'.step_dataDir uninit hcall', hdir]

/-- A run is simulated from its beginning on. -/
theorem refines_run {e : LSMTreeEngine} {s : Levels} (hr : Refines e s) (uninit : Uninit)
    {calls : List Call} (hcalls : Along Succeeds uninit e calls) :
    ∃ s', Refines (e.run uninit calls) s' ∧ (e.run uninit calls).dataDir = e.dataDir := by
  induction calls generalizing e s with
  | nil => exact ⟨s, hr, rfl⟩
  | cons call calls ih =>
      obtain ⟨hcall, htail⟩ := hcalls
      obtain ⟨s', hr', hdir⟩ := ih (hr.step uninit hcall) htail
      exact ⟨s', hr', hdir.trans (hr.step_dataDir uninit hcall)⟩

theorem along_append {P : LSMTreeEngine → Call → Prop} {uninit : Uninit} {e : LSMTreeEngine}
    {calls calls' : List Call} :
    Along P uninit e (calls ++ calls') ↔
      Along P uninit e calls ∧ Along P uninit (e.run uninit calls) calls' := by
  induction calls generalizing e with
  | nil => exact ⟨fun h => ⟨trivial, h⟩, fun h => h.2⟩
  | cons call calls ih =>
      constructor
      · rintro ⟨hcall, htail⟩
        obtain ⟨hfront, hback⟩ := ih.mp htail
        exact ⟨⟨hcall, hfront⟩, hback⟩
      · rintro ⟨⟨hcall, hfront⟩, hback⟩
        exact ⟨hcall, ih.mpr ⟨hfront, hback⟩⟩

theorem run_append (e : LSMTreeEngine) (uninit : Uninit) (calls calls' : List Call) :
    e.run uninit (calls ++ calls') = (e.run uninit calls).run uninit calls' := by
  rw [run, run, run, List.foldl_append]

/-- **An additional `put` on `k₁` changes the read of no other key**, wherever
it stands in the history, as long as nothing goes wrong: every table write
succeeds under a fresh name, compaction is called with fewer than two tables
only, and no key held when the engine is opened again has a `':'` in its primary
part. -/
theorem get_isolated (dataDir : String) (maxSstables : ℕ) (uninit : Uninit)
    (decoded applied : ℕ → Timestamp) (before after : List Call) (k₁ k₂ : MultiLevelKey)
    (entry : DataEntry) (hne : k₁ ≠ k₂)
    (hcalls : Along Succeeds uninit
      ((create dataDir SortedMap.empty none maxSstables).open uninit .readWrite decoded applied).2
      (before ++ after))
    (hcalls' : Along Succeeds uninit
      ((create dataDir SortedMap.empty none maxSstables).open uninit .readWrite decoded applied).2
      (before ++ .put k₁ entry :: after)) :
    let e := ((create dataDir SortedMap.empty none maxSstables).open uninit .readWrite decoded applied).2
    ((e.run uninit (before ++ .put k₁ entry :: after)).get uninit k₂).1
      = ((e.run uninit (before ++ after)).get uninit k₂).1 := by
  intro e
  obtain ⟨hbefore, hafter⟩ := along_append.mp hcalls
  obtain ⟨-, hput, hafter'⟩ := along_append.mp hcalls'
  obtain ⟨s, hr, -⟩ :=
    refines_run (refines_open_empty dataDir maxSstables uninit decoded applied) uninit hbefore
  -- the additional put, accepted or not
  have hagree : AgreeOff k₁ s (simulate dataDir s (.put k₁ entry)) := by
    rw [simulate]
    split_ifs
    · exact (AgreeOff.refl hr.wellFormed k₁).write_right entry
    · exact AgreeOff.refl hr.wellFormed k₁
  have hdir := hr.step_dataDir uninit hput
  have hr' : Refines ((e.run uninit before).step uninit (.put k₁ entry))
      (simulate dataDir s (.put k₁ entry)) := hr.step uninit hput
  obtain ⟨t, t', hagree', ht, ht'⟩ := agreeOff_run hagree hr hr' hdir.symm uninit hafter hafter'
  have hrun : e.run uninit (before ++ .put k₁ entry :: after)
      = ((e.run uninit before).step uninit (.put k₁ entry)).run uninit after := by
    rw [run_append]
    rfl
  rw [hrun, run_append, ht'.get_eq uninit k₂, ht.get_eq uninit k₂,
    hagree'.lookup_eq (Ne.symm hne)]

/-- A history with a flush and a reopening, and the key `("ab", "c")` added to
it. -/
theorem get_isolated_sample :
    let before := [.put ⟨[97], [98, 58, 99]⟩ ⟨[2], 1, 0, false⟩]
    let after := [.flush ⟨sampleTime 0, .written⟩ ⟨sampleTime 1, .written⟩,
      .reopen ⟨sampleTime 2, .written⟩ ⟨sampleTime 3, .written⟩ (fun _ => 0) fun _ => 0]
    ((sampleOpened.run ⟨0, 0, 0, 0, 0⟩ (before ++ .put ⟨[97, 98], [99]⟩ ⟨[1], 1, 0, false⟩ :: after)).get
        ⟨0, 0, 0, 0, 0⟩ ⟨[97], [98, 58, 99]⟩).1
      = ((sampleOpened.run ⟨0, 0, 0, 0, 0⟩ (before ++ after)).get ⟨0, 0, 0, 0, 0⟩ ⟨[97], [98, 58, 99]⟩).1 := by
  refine get_isolated "d" 10 ⟨0, 0, 0, 0, 0⟩ (fun _ => 0) (fun _ => 0) _ _ _ _ _ (by decide) ?_ ?_
  · refine ⟨trivial, fun _ => by decide +kernel, ⟨fun h => absurd (by decide +kernel) h, ?_, ?_⟩,
      trivial⟩
    · decide +kernel
    · decide +kernel
  · refine ⟨trivial, trivial, fun _ => by decide +kernel,
      ⟨fun h => absurd (by decide +kernel) h, ?_, ?_⟩, trivial⟩
    · decide +kernel
    · decide +kernel

/-- **A key shadows another one after a restart.**  The key `("a:b", "c")` is put
and flushed, and the engine opened again on its directory: `get` of the key
`("a", "b:c")`, which was never put, returns the entry. -/
theorem get_not_isolated :
    let after := [.flush ⟨sampleTime 0, .written⟩ ⟨sampleTime 1, .written⟩,
      .reopen ⟨sampleTime 2, .written⟩ ⟨sampleTime 3, .written⟩ (fun _ => 0) fun _ => 0]
    ((sampleOpened.run ⟨0, 0, 0, 0, 0⟩ (.put ⟨[97, 58, 98], [99]⟩ ⟨[1], 1, 0, false⟩ :: after)).get
        ⟨0, 0, 0, 0, 0⟩ ⟨[97], [98, 58, 99]⟩).1 = .ok ⟨[1], 1, 0, false⟩ ∧
      ((sampleOpened.run ⟨0, 0, 0, 0, 0⟩ after).get ⟨0, 0, 0, 0, 0⟩ ⟨[97], [98, 58, 99]⟩).1
        = .error ⟨.notFound, "Key not found"⟩ := by
  intro after
  constructor
  · decide +kernel
  · decide +kernel

end QcDatabase.LSMTreeEngine
