/-
# What recovery rebuilds

Runs of puts and removals on an open engine with an empty memory table, next to
the replay of the log records these calls append, taken as the concatenation of
their frames.

The live memory table and the recovered one always have the same keys, but the
encoding of a record has no room for the version, the timestamp and the deletion
flag of an entry: a replayed put gets the version 0, the clock reading of its
decoding, and no deletion mark.  `recoverFromWal_agrees_iff` says for which runs
this makes no difference.
-/
import QcDatabase.Storage.Runs

namespace QcDatabase.LSMTreeEngine

/-! ## Calls and their records -/

/-- The record a call appends to the log. -/
def Call.record : Call → Option WALEntry
  | .put key entry => some ⟨WALEntryType.put, key, entry, 0⟩
  | .remove key now => some ⟨WALEntryType.delete, key,
      { DataEntry.default now with deleted := true, timestamp := now }, 0⟩
  | _ => none

/-- A put or a removal whose record fits the log format. -/
def Call.Loggable (call : Call) : Prop := ∃ r, call.record = some r ∧ r.Loggable

theorem Call.Loggable.eq_put_or_remove {call : Call} (hcall : call.Loggable) :
    (∃ key entry, call = .put key entry) ∨ ∃ key now, call = .remove key now := by
  obtain ⟨r, hr, -⟩ := hcall
  cases call with
  | put key entry => exact Or.inl ⟨key, entry, rfl⟩
  | remove key now => exact Or.inr ⟨key, now, rfl⟩
  | flush first second => cases hr
  | backgroundFlush first second => cases hr
  | compact merged => cases hr
  | reopen first second decoded applied => cases hr

/-- The log of a run: the frames of its records. -/
def logOf (calls : List Call) : Bytes := (calls.filterMap Call.record).flatMap WALEntry.frame

/-- A new engine whose log is open and holds these bytes. -/
def onLog (dataDir : String) (maxSstables : ℕ) (log : Bytes) : LSMTreeEngine :=
  let e := create dataDir SortedMap.empty none maxSstables
  { e with wal := WAL.opened (dataDir ++ "/wal.log") log }

/-- What the replayed record of a call does to a memory table, as the `i`-th of
the log. -/
def replayCall (decoded applied : ℕ → Timestamp) (i : ℕ) (m : MemTable) (call : Call) : MemTable :=
  match call.record with
  | none => m
  | some r => applyWalEntry m (r.decoded (decoded i)) (applied i)

/-- The records of a run, replayed from the `i`-th on. -/
def replayCalls (decoded applied : ℕ → Timestamp) : ℕ → List Call → MemTable → MemTable
  | _, [], m => m
  | i, call :: calls, m =>
      replayCalls decoded applied (i + 1) calls (replayCall decoded applied i m call)

theorem applyWalEntries_replayed (decoded applied : ℕ → Timestamp) {calls : List Call}
    (hcalls : ∀ call ∈ calls, call.Loggable) (i : ℕ) (m : MemTable) :
    applyWalEntries applied i (WAL.replayed 0 decoded i (calls.filterMap Call.record)) m
      = replayCalls decoded applied i calls m := by
  induction calls generalizing i m with
  | nil => rfl
  | cons call calls ih =>
      obtain ⟨r, hr, -⟩ := hcalls call List.mem_cons_self
      have htail := ih (fun other hother => hcalls other (List.mem_cons_of_mem _ hother)) (i + 1)
        (applyWalEntry m (r.decoded (decoded i)) (applied i))
      rw [List.filterMap_cons, hr, WAL.replayed, if_pos (by simp), applyWalEntries, htail,
        replayCalls, replayCall, hr]

/-- **`recover_from_wal` on the log of a run replays its records.** -/
theorem recoverFromWal_logOf (decoded applied : ℕ → Timestamp) {calls : List Call}
    (hcalls : ∀ call ∈ calls, call.Loggable) (dataDir : String) (maxSstables : ℕ) :
    ((onLog dataDir maxSstables (logOf calls)).recoverFromWal decoded applied).2.memtable
      = replayCalls decoded applied 0 calls MemTable.empty := by
  have hend := WAL.atEnd_opened (dataDir ++ "/wal.log") (logOf calls)
  have hrecords : ∀ r ∈ calls.filterMap Call.record, r.Loggable := by
    intro r hr
    obtain ⟨call, hcall, hrec⟩ := List.mem_filterMap.mp hr
    obtain ⟨r', hr', hlog⟩ := hcalls call hcall
    rw [hrec] at hr'
    rwa [Option.some.inj hr']
  have hbytes : (WAL.opened (dataDir ++ "/wal.log") (logOf calls)).bytes
      = (calls.filterMap Call.record).flatMap WALEntry.frame ++ [] := by
    rw [WAL.opened_eq, List.append_nil]
    rfl
  obtain ⟨f, hreplay, -, -⟩ :=
    WAL.replayFrom_of_frames hend.isOpen hend.ready hrecords [] (by simp) hbytes 0 decoded
  have hwal : (onLog dataDir maxSstables (logOf calls)).wal
      = WAL.opened (dataDir ++ "/wal.log") (logOf calls) := rfl
  rw [recoverFromWal, hwal, hreplay]
  exact applyWalEntries_replayed decoded applied hcalls 0 MemTable.empty

/-! ## The live side -/

/-- On an open log `append` returns `OK` and the log stays open. -/
theorem append_of_isOpen {w : WAL} (h : w.isOpen = true) (entry : WALEntry) :
    ∃ wal, w.append entry = (.ok (), wal) ∧ wal.isOpen = true := by
  rw [WAL.append, if_neg (by simp [h])]
  exact ⟨_, rfl, h⟩

/-- What a call does to the memory table. -/
def liveCall (m : MemTable) : Call → MemTable
  | .put key entry => (m.put key entry).2
  | .remove key now => (m.remove key now).2
  | _ => m

/-- The calls of a run act on the memory table alone. -/
theorem memtable_step {e : LSMTreeEngine} (hopen : e.isOpen = true) (hwal : e.wal.isOpen = true)
    (uninit : Uninit) {call : Call} (hcall : call.Loggable) :
    (e.step uninit call).isOpen = true ∧ (e.step uninit call).wal.isOpen = true ∧
      (e.step uninit call).memtable = liveCall e.memtable call := by
  rcases hcall.eq_put_or_remove with ⟨key, entry, rfl⟩ | ⟨key, now, rfl⟩
  · obtain ⟨wal, hw, hlog⟩ := append_of_isOpen hwal ⟨WALEntryType.put, key, entry, 0⟩
    rw [step, put, if_neg (by simp [hopen]), hw]
    exact ⟨hopen, hlog, rfl⟩
  · obtain ⟨wal, hw, hlog⟩ := append_of_isOpen hwal ⟨WALEntryType.delete, key,
      { DataEntry.default now with deleted := true, timestamp := now }, 0⟩
    rw [step, remove, if_neg (by simp [hopen])]
    dsimp only
    rw [hw]
    exact ⟨hopen, hlog, rfl⟩

/-! ## Both sides, key by key -/

/-- The last call that a memory table has accepted on a key: a put, with its
position in the run, or a removal. -/
inductive LastCall where
  | none
  | put (i : ℕ) (entry : DataEntry)
  | remove
  deriving DecidableEq, Repr

/-- The last accepted call on `key` after one more call, the `i`-th. -/
def LastCall.next (key : MultiLevelKey) (i : ℕ) (last : LastCall) : Call → LastCall
  | .put key' entry => if key' = key ∧ Accepted key' entry then .put i entry else last
  | .remove key' _ => if key' = key then .remove else last
  | _ => last

/-- The last accepted call on `key` in a run, from the `i`-th call on. -/
def lastCall (key : MultiLevelKey) : ℕ → LastCall → List Call → LastCall
  | _, last, [] => last
  | i, last, call :: calls => lastCall key (i + 1) (last.next key i call) calls

/-- What live and recovered table hold under a key after its last accepted
call. -/
def LastCall.Holds (decoded : ℕ → Timestamp) (live recovered : Option DataEntry) : LastCall → Prop
  | .none => live = Option.none ∧ recovered = Option.none
  | .put i entry => live = some entry ∧ recovered = some ⟨entry.value, 0, decoded i, false⟩
  | .remove => ∃ x y, live = some x ∧ recovered = some y ∧ x.deleted = true ∧ y.deleted = true

/-- **Step lemma.**  The live call and its replayed record keep the two tables
in step. -/
theorem LastCall.Holds.step {decoded : ℕ → Timestamp} {key : MultiLevelKey} {last : LastCall}
    {live recovered : MemTable}
    (h : last.Holds decoded (live.data.find? key) (recovered.data.find? key)) (i : ℕ)
    (applied : ℕ → Timestamp) {call : Call} (hcall : call.Loggable) :
    (last.next key i call).Holds decoded ((liveCall live call).data.find? key)
      ((replayCall decoded applied i recovered call).data.find? key) := by
  rcases hcall.eq_put_or_remove with ⟨key', entry, rfl⟩ | ⟨key', now, rfl⟩
  · have hreplay : replayCall decoded applied i recovered (.put key' entry)
        = (recovered.put key' ⟨entry.value, 0, decoded i, false⟩).2 := rfl
    -- only the sizes of key and value decide, and the record has both
    have hiff : Accepted key' ⟨entry.value, 0, decoded i, false⟩ ↔ Accepted key' entry := Iff.rfl
    rw [hreplay, LastCall.next, liveCall]
    by_cases ha : Accepted key' entry
    · rw [(MemTable.put_of_accepted ha).2, (MemTable.put_of_accepted (hiff.mpr ha)).2,
        SortedMap.find?_insert, SortedMap.find?_insert]
      by_cases hkey : key' = key
      · have hboth : key' = key ∧ Accepted key' entry := ⟨hkey, ha⟩
        rw [if_pos hboth, if_pos hkey, if_pos hkey]
        exact ⟨rfl, rfl⟩
      · have hneither : ¬ (key' = key ∧ Accepted key' entry) := fun hc => hkey hc.1
        rw [if_neg hneither, if_neg hkey, if_neg hkey]
        exact h
    · have hneither : ¬ (key' = key ∧ Accepted key' entry) := fun hc => ha hc.2
      rw [(MemTable.put_of_not_accepted ha).2,
        (MemTable.put_of_not_accepted fun hc => ha (hiff.mp hc)).2, if_neg hneither]
      exact h
  · have hreplay : replayCall decoded applied i recovered (.remove key' now)
        = (recovered.remove key' (applied i)).2 := rfl
    rw [hreplay, LastCall.next, liveCall, (live.remove_eq key' now).2,
      (recovered.remove_eq key' (applied i)).2, SortedMap.find?_insert, SortedMap.find?_insert]
    by_cases hkey : key' = key
    · rw [if_pos hkey, if_pos hkey, if_pos hkey]
      exact ⟨_, _, rfl, rfl, rfl, rfl⟩
    · rw [if_neg hkey, if_neg hkey, if_neg hkey]
      exact h

/-- **Run lemma.** -/
theorem holds_run (uninit : Uninit) (decoded applied : ℕ → Timestamp) (key : MultiLevelKey)
    {calls : List Call} (hcalls : ∀ call ∈ calls, call.Loggable) {e : LSMTreeEngine}
    (hopen : e.isOpen = true) (hwal : e.wal.isOpen = true) {recovered : MemTable}
    {last : LastCall} (i : ℕ)
    (h : last.Holds decoded (e.memtable.data.find? key) (recovered.data.find? key)) :
    (lastCall key i last calls).Holds decoded
      ((e.run uninit calls).memtable.data.find? key)
      ((replayCalls decoded applied i calls recovered).data.find? key) := by
  induction calls generalizing e recovered last i with
  | nil => exact h
  | cons call calls ih =>
      have hcall := hcalls call List.mem_cons_self
      obtain ⟨hopen', hwal', hmem⟩ := memtable_step hopen hwal uninit hcall
      have hstep := h.step i applied hcall
      rw [← hmem] at hstep
      exact ih (fun other hother => hcalls other (List.mem_cons_of_mem _ hother)) hopen' hwal'
        (i + 1) hstep

/-! ## When recovery agrees -/

/-- The same keys, the same deletion flags, and the same value, version and
timestamp for the keys that are not marked as deleted. -/
def Agrees (live recovered : SortedMap MultiLevelKey DataEntry) : Prop :=
  live.keys = recovered.keys ∧
    ∀ key x y, live.find? key = some x → recovered.find? key = some y →
      x.deleted = y.deleted ∧
        (x.deleted = false →
          x.value = y.value ∧ x.version = y.version ∧ x.timestamp = y.timestamp)

theorem mem_keys_iff (m : SortedMap MultiLevelKey DataEntry) (key : MultiLevelKey) :
    key ∈ m.keys ↔ (m.find? key).isSome = true := by
  rw [← not_iff_not, ← SortedMap.find?_eq_none_iff, Option.not_isSome_iff_eq_none]

/-- The live table and the recovered one have the same keys. -/
theorem LastCall.Holds.isSome_eq {decoded : ℕ → Timestamp} {last : LastCall}
    {live recovered : Option DataEntry} (h : last.Holds decoded live recovered) :
    live.isSome = recovered.isSome := by
  cases last with
  | none => rw [h.1, h.2]
  | put i entry => rw [h.1, h.2, Option.isSome_some, Option.isSome_some]
  | remove =>
      obtain ⟨x, y, hlive, hrec, -⟩ := h
      rw [hlive, hrec, Option.isSome_some, Option.isSome_some]

/-- The fields agree if the entry of a last put survives its record. -/
theorem LastCall.Holds.fields_eq {decoded : ℕ → Timestamp} {last : LastCall} {x y : DataEntry}
    (h : last.Holds decoded (some x) (some y))
    (hput : ∀ i entry, last = .put i entry →
      entry.deleted = false ∧ entry.version = 0 ∧ entry.timestamp = decoded i) :
    x.deleted = y.deleted ∧
      (x.deleted = false →
        x.value = y.value ∧ x.version = y.version ∧ x.timestamp = y.timestamp) := by
  cases last with
  | none => cases h.1
  | put i entry =>
      obtain ⟨hdel, hversion, htime⟩ := hput i entry rfl
      obtain rfl := Option.some.inj h.1
      obtain rfl := Option.some.inj h.2
      exact ⟨hdel, fun _ => ⟨rfl, hversion, htime⟩⟩
  | remove =>
      obtain ⟨x', y', hlive, hrec, hdx, hdy⟩ := h
      obtain rfl := Option.some.inj hlive
      obtain rfl := Option.some.inj hrec
      exact ⟨by rw [hdx, hdy], fun hd => by rw [hdx] at hd; cases hd⟩

/-- **Recovery rebuilds the memory table exactly when, for every key whose last
accepted call is a put, the entry of that put has version 0, no deletion mark,
and the timestamp at which its record is decoded.** -/
theorem recoverFromWal_agrees_iff (e : LSMTreeEngine) (hopen : e.isOpen = true)
    (hwal : e.wal.isOpen = true) (hempty : e.memtable = MemTable.empty) (uninit : Uninit)
    (calls : List Call) (hcalls : ∀ call ∈ calls, call.Loggable) (dataDir : String)
    (maxSstables : ℕ) (decoded applied : ℕ → Timestamp) :
    Agrees (e.run uninit calls).memtable.data
        ((onLog dataDir maxSstables (logOf calls)).recoverFromWal decoded applied).2.memtable.data ↔
      ∀ key i entry, lastCall key 0 .none calls = .put i entry →
        entry.deleted = false ∧ entry.version = 0 ∧ entry.timestamp = decoded i := by
  rw [recoverFromWal_logOf decoded applied hcalls]
  have hkey : ∀ key, (lastCall key 0 .none calls).Holds decoded
      ((e.run uninit calls).memtable.data.find? key)
      ((replayCalls decoded applied 0 calls MemTable.empty).data.find? key) := by
    intro key
    refine holds_run uninit decoded applied key hcalls hopen hwal 0 ?_
    rw [hempty]
    exact ⟨rfl, rfl⟩
  constructor
  · rintro ⟨-, hfields⟩ key i entry hlast
    have h := hkey key
    rw [hlast] at h
    obtain ⟨hlive, hrec⟩ := h
    obtain ⟨hdel, hrest⟩ := hfields key _ _ hlive hrec
    obtain ⟨-, hversion, htime⟩ := hrest hdel
    exact ⟨hdel, hversion, htime⟩
  · intro hcond
    constructor
    · refine SortedMap.eq_of_mem_iff (SortedMap.keys_sorted _) (SortedMap.keys_sorted _) ?_
      intro key
      rw [mem_keys_iff, mem_keys_iff, (hkey key).isSome_eq]
    · intro key x y hx hy
      have h := hkey key
      rw [hx, hy] at h
      exact h.fields_eq (hcond key)

/-- A put of an entry with version 0, and a key that is put and removed. -/
def sampleLogged : List Call :=
  [.put ⟨[97], []⟩ ⟨[1, 0], 0, 7, false⟩, .put ⟨[98], []⟩ ⟨[2], 4, 3, false⟩, .remove ⟨[98], []⟩ 5]

theorem recoverFromWal_agrees_sampleLogged :
    Agrees (sampleOpened.run ⟨0, 0, 0, 0, 0⟩ sampleLogged).memtable.data
      ((onLog "d" 10 (logOf sampleLogged)).recoverFromWal (fun _ => 7) fun _ => 9).2.memtable.data
      := by
  refine (recoverFromWal_agrees_iff sampleOpened (by decide +kernel) (by decide +kernel)
    (by decide +kernel) ⟨0, 0, 0, 0, 0⟩ sampleLogged ?_ "d" 10 (fun _ => 7) fun _ => 9).mpr ?_
  · intro call hcall
    rw [sampleLogged, List.mem_cons, List.mem_cons, List.mem_singleton] at hcall
    rcases hcall with rfl | rfl | rfl
    all_goals exact ⟨_, rfl, by decide, by decide⟩
  · intro key i entry hlast
    by_cases ha : (⟨[97], []⟩ : MultiLevelKey) = key
    · subst ha
      cases hlast
      decide
    · by_cases hb : (⟨[98], []⟩ : MultiLevelKey) = key
      · subst hb
        cases hlast
      · simp [sampleLogged, lastCall, LastCall.next, ha, hb] at hlast

/-- **Recovery drops the version**, and takes a new timestamp. -/
theorem recoverFromWal_drops_version :
    let calls := [.put ⟨[97], []⟩ ⟨[1], 3, 7, false⟩]
    (sampleOpened.run ⟨0, 0, 0, 0, 0⟩ calls).memtable.data.find? ⟨[97], []⟩
        = some ⟨[1], 3, 7, false⟩ ∧
      ((onLog "d" 10 (logOf calls)).recoverFromWal (fun _ => 9) fun _ => 9).2.memtable.data.find?
        ⟨[97], []⟩ = some ⟨[1], 0, 9, false⟩ ∧
      ¬ Agrees (sampleOpened.run ⟨0, 0, 0, 0, 0⟩ calls).memtable.data
        ((onLog "d" 10 (logOf calls)).recoverFromWal (fun _ => 9) fun _ => 9).2.memtable.data := by
  intro calls
  have hlive : (sampleOpened.run ⟨0, 0, 0, 0, 0⟩ calls).memtable.data.find? ⟨[97], []⟩
      = some ⟨[1], 3, 7, false⟩ := by decide +kernel
  have hrec : ((onLog "d" 10 (logOf calls)).recoverFromWal (fun _ => 9)
      fun _ => 9).2.memtable.data.find? ⟨[97], []⟩ = some ⟨[1], 0, 9, false⟩ := by
    decide +kernel
  refine ⟨hlive, hrec, ?_⟩
  rintro ⟨-, hfields⟩
  obtain ⟨-, hrest⟩ := hfields _ _ _ hlive hrec
  obtain ⟨-, hversion, -⟩ := hrest rfl
  exact absurd hversion (by decide)

end QcDatabase.LSMTreeEngine
