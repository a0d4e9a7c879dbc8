/-
# What the public calls change

One lemma for each call of the engine that says everything it can do:
`get_frame`, `put_cases`, `remove_cases`, `open_cases`; and what the
version-checked calls come down to, a read, a comparison, and a plain `put` or
`remove` (`putIfVersionMatch_eq`, `removeIfVersionMatch_eq`).

A read changes the state as well, as a table loads its index when it is first
asked.  It changes nothing that is read (`sameReads_get`).

`PublicCall` lists the calls, the rounds of the background thread and a new
object on the same data directory included; `callStep` is the engine after one.
-/
import Mathlib.Data.List.Forall2
import QcDatabase.Storage.WalFormat
import QcDatabase.Storage.Flush

namespace QcDatabase

/-! ## Loading an index -/

namespace SSTable

/-- Loading the index a second time finds the same. -/
theorem ensureIndex_ensureIndex (t : SSTable) (uninit : Uninit) (dir : Directory) :
    (t.ensureIndex uninit dir).2.ensureIndex uninit dir = t.ensureIndex uninit dir := by
  have hload : (t.loadIndex uninit dir).2 = t ∨
      (t.loadIndex uninit dir).2.loadIndex uninit dir = t.loadIndex uninit dir ∧
        Result.isOk (t.loadIndex uninit dir).1 = true := by
    rw [loadIndex]
    rcases hfile : dir.find? t.filename with _ | file
    · exact Or.inl rfl
    · dsimp only
      split_ifs with hmagic hversion
      · exact Or.inl rfl
      · exact Or.inl rfl
      · right
        constructor
        · rw [loadIndex, hfile]
          dsimp only
          rw [if_neg hmagic, if_neg hversion]
        · rfl
  by_cases hempty : t.index.isEmpty = true
  · have hens : t.ensureIndex uninit dir = t.loadIndex uninit dir := if_pos hempty
    rw [hens]
    rcases hload with hsame | ⟨hagain, hok⟩
    · rw [hsame, hens]
    · rw [ensureIndex]
      by_cases hstill : (t.loadIndex uninit dir).2.index.isEmpty = true
      · rw [if_pos hstill, hagain]
      · rw [if_neg hstill]
        rcases hresult : t.loadIndex uninit dir with ⟨_ | ⟨⟩, t'⟩
        · rw [hresult] at hok
          cases hok
        · rfl
  · have hens : t.ensureIndex uninit dir = (.ok (), t) := if_neg hempty
    rw [hens, hens]

/-- What reading can make of a table. -/
def Reread (uninit : Uninit) (dir : Directory) (t t' : SSTable) : Prop :=
  t' = t ∨ t' = (t.ensureIndex uninit dir).2

variable {uninit : Uninit} {dir : Directory} {t t' : SSTable}

theorem Reread.ensureIndex_eq (h : Reread uninit dir t t') :
    t'.ensureIndex uninit dir = t.ensureIndex uninit dir := by
  rcases h with rfl | rfl
  · rfl
  · exact t.ensureIndex_ensureIndex uninit dir

theorem Reread.read_eq (h : Reread uninit dir t t') (key : MultiLevelKey) :
    t'.read uninit dir key = t.read uninit dir key := by
  rw [read, read, h.ensureIndex_eq]

theorem Reread.rangeScan_eq (h : Reread uninit dir t t') (query : RangeQuery) :
    t'.rangeScan uninit dir query = t.rangeScan uninit dir query := by
  rw [rangeScan, rangeScan, h.ensureIndex_eq]

theorem reread_read (t : SSTable) (uninit : Uninit) (dir : Directory) (key : MultiLevelKey) :
    Reread uninit dir t (t.read uninit dir key).2 := by
  right
  rw [read]
  rcases t.ensureIndex uninit dir with ⟨_ | _, t'⟩
  · rfl
  · rfl

theorem reread_rangeScan (t : SSTable) (uninit : Uninit) (dir : Directory) (query : RangeQuery) :
    Reread uninit dir t (t.rangeScan uninit dir query).2 := by
  right
  rw [rangeScan]
  rcases t.ensureIndex uninit dir with ⟨_ | _, t'⟩
  · rfl
  · rfl

end SSTable

open SSTable

namespace LSMTreeEngine

/-! ## Reads -/

/-- What reading can make of a list of tables. -/
def RereadAll (uninit : Uninit) (dir : Directory) : List SSTable → List SSTable → Prop :=
  List.Forall₂ (Reread uninit dir)

theorem RereadAll.refl (uninit : Uninit) (dir : Directory) (ts : List SSTable) :
    RereadAll uninit dir ts ts :=
  List.forall₂_same.mpr fun _ _ => Or.inl rfl

/-- The walk of a point read over the tables. -/
theorem rereadAll_getFromSstables (uninit : Uninit) (dir : Directory) (key : MultiLevelKey)
    (ts : List SSTable) : RereadAll uninit dir ts (getFromSstables uninit dir key ts).2 := by
  induction ts with
  | nil => exact List.Forall₂.nil
  | cons t newer ih =>
      rw [getFromSstables]
      rcases hnewer : getFromSstables uninit dir key newer with ⟨f | entry, newer'⟩
      · rw [hnewer] at ih
        have hread := t.reread_read uninit dir key
        rcases htable : t.read uninit dir key with ⟨f' | entry, t'⟩
        · rw [htable] at hread
          exact List.Forall₂.cons hread ih
        · rw [htable] at hread
          exact List.Forall₂.cons hread ih
      · rw [hnewer] at ih
        exact List.Forall₂.cons (Or.inl rfl) ih

/-- The walk of a scan over the tables. -/
theorem rereadAll_scanSstables (uninit : Uninit) (dir : Directory) (query : RangeQuery)
    (ts : List SSTable) (merged : SortedMap MultiLevelKey DataEntry) :
    RereadAll uninit dir ts (scanSstables uninit dir query ts merged).2 := by
  induction ts with
  | nil => exact List.Forall₂.nil
  | cons t newer ih =>
      rw [scanSstables]
      rcases hnewer : scanSstables uninit dir query newer merged with ⟨_ | merged', newer'⟩
      · rw [hnewer] at ih
        exact List.Forall₂.cons (Or.inl rfl) ih
      · rw [hnewer] at ih
        exact List.Forall₂.cons (t.reread_rangeScan uninit dir query) ih


/-- The engine with other tables in place of its own. -/
def withSstables (e : LSMTreeEngine) (ts : List SSTable) : LSMTreeEngine :=
  { e with sstables := ts }

/-- A point read touches the tables only, and these as a reader does. -/
theorem get_frame (e : LSMTreeEngine) (uninit : Uninit) (key : MultiLevelKey) :
    ∃ ts, (e.get uninit key).2 = e.withSstables ts ∧ RereadAll uninit e.dir e.sstables ts := by
  have hsame : ∃ ts, e = e.withSstables ts ∧ RereadAll uninit e.dir e.sstables ts :=
    ⟨e.sstables, rfl, RereadAll.refl uninit e.dir e.sstables⟩
  rw [get]
  split_ifs with hopen
  · exact hsame
  · rcases e.memtable.get key with _ | entry
    · dsimp only
      split
      · exact hsame
      · have hwalk := rereadAll_getFromSstables uninit e.dir key e.sstables
        rcases htables : getFromSstables uninit e.dir key e.sstables with ⟨_ | entry, ts⟩
        · rw [htables] at hwalk
          exact ⟨ts, rfl, hwalk⟩
        · rw [htables] at hwalk
          exact ⟨ts, rfl, hwalk⟩
    · exact hsame

/-- The same for a scan. -/
theorem rangeScan_frame (e : LSMTreeEngine) (uninit : Uninit) (query : RangeQuery) :
    ∃ ts, (e.rangeScan uninit query).2 = e.withSstables ts ∧
      RereadAll uninit e.dir e.sstables ts := by
  have hsame : ∃ ts, e = e.withSstables ts ∧ RereadAll uninit e.dir e.sstables ts :=
    ⟨e.sstables, rfl, RereadAll.refl uninit e.dir e.sstables⟩
  rw [rangeScan]
  split_ifs with hopen
  · exact hsame
  · rcases e.memtable.rangeScan query with _ | scan
    · exact hsame
    · dsimp only
      split
      · exact hsame
      · exact ⟨_, rfl, rereadAll_scanSstables uninit e.dir query e.sstables _⟩

/-- What depends on the reads of a table only is the same after reading. -/
theorem RereadAll.map_eq {β : Type} {uninit : Uninit} {dir : Directory} {ts ts' : List SSTable}
    (h : RereadAll uninit dir ts ts') {f : SSTable → β}
    (hf : ∀ t t', Reread uninit dir t t' → f t' = f t) : ts'.map f = ts.map f := by
  induction h with
  | nil => rfl
  | cons ht _ ih => rw [List.map_cons, List.map_cons, hf _ _ ht, ih]

/-- Tables that were read answer as before. -/
theorem sameReads_withSstables {e : LSMTreeEngine} {uninit : Uninit} {ts : List SSTable}
    (h : RereadAll uninit e.dir e.sstables ts) : SameReads uninit e (e.withSstables ts) := by
  refine sameReads_of_levels rfl ?_ ?_
  · intro key
    have hread := h.map_eq (f := fun t => (t.read uninit e.dir key).1.toOption)
      fun t t' ht => by rw [ht.read_eq]
    rw [answers, answers, tableAnswers, tableAnswers, List.map_reverse, List.map_reverse]
    exact congrArg _ (congrArg _ (congrArg _ (congrArg List.reverse hread)))
  · intro query _
    have hscan := h.map_eq (f := fun t => (t.rangeScan uninit e.dir query).1)
      fun t t' ht => by rw [ht.rangeScan_eq]
    rw [scans, scans, tableScans, tableScans, List.map_reverse, List.map_reverse]
    exact congrArg _ (congrArg _ (congrArg _ (congrArg List.reverse hscan)))

/-- **Reading changes nothing that is read.** -/
theorem sameReads_get (e : LSMTreeEngine) (uninit : Uninit) (key : MultiLevelKey) :
    SameReads uninit e (e.get uninit key).2 := by
  obtain ⟨ts, hget, hreread⟩ := e.get_frame uninit key
  rw [hget]
  exact sameReads_withSstables hreread

theorem sameReads_rangeScan (e : LSMTreeEngine) (uninit : Uninit) (query : RangeQuery) :
    SameReads uninit e (e.rangeScan uninit query).2 := by
  obtain ⟨ts, hscan, hreread⟩ := e.rangeScan_frame uninit query
  rw [hscan]
  exact sameReads_withSstables hreread

/-- What every `get` keeps, `multi_get` keeps. -/
theorem invariant_multiGetFrom {uninit : Uninit} {P : LSMTreeEngine → Prop}
    (hget : ∀ e key, P e → P (e.get uninit key).2) {e : LSMTreeEngine} (h : P e)
    (clock : ℕ → Timestamp) (i : ℕ) (keys : List MultiLevelKey) :
    P (e.multiGetFrom uninit clock i keys).2 := by
  induction keys generalizing e i with
  | nil => exact h
  | cons key keys ih =>
      have hfirst := hget e key h
      rw [multiGetFrom]
      rcases hread : e.get uninit key with ⟨result, e'⟩
      rw [hread] at hfirst
      have hrest := ih hfirst (i + 1)
      dsimp only
      rcases result with f | entry
      · exact hrest
      · exact hrest

/-- What the `put` of each entry keeps, `multi_put` keeps. -/
theorem invariant_multiPut {P : LSMTreeEngine → Prop} {entries : List (MultiLevelKey × DataEntry)}
    (hput : ∀ e, ∀ entry ∈ entries, P e → P (e.put entry.1 entry.2).2) {e : LSMTreeEngine}
    (h : P e) : P (e.multiPut entries).2 := by
  induction entries generalizing e with
  | nil => exact h
  | cons head entries ih =>
      have hfirst := hput e head List.mem_cons_self h
      have hrest : ∀ e, ∀ entry ∈ entries, P e → P (e.put entry.1 entry.2).2 :=
        fun e entry hentry => hput e entry (List.mem_cons_of_mem head hentry)
      rw [multiPut]
      rcases hresult : e.put head.1 head.2 with ⟨f | _, e'⟩
      · rw [hresult] at hfirst
        exact hfirst
      · rw [hresult] at hfirst
        exact ih hrest hfirst

/-! ## Writes -/

/-- No reader looks at the log. -/
theorem sameReads_wal (e : LSMTreeEngine) (uninit : Uninit) (wal : WAL) :
    SameReads uninit e { e with wal := wal } :=
  sameReads_of_levels rfl (fun _ => rfl) fun _ _ => rfl

/-- A `put` reports an error and changes the log at most, or adds an accepted entry to the
memory table. -/
theorem put_cases (e : LSMTreeEngine) (key : MultiLevelKey) (entry : DataEntry) :
    (∃ f wal, e.put key entry = (.error f, { e with wal := wal })) ∨
      ∃ wal m, e.put key entry = (.ok (), { e with wal := wal, memtable := m }) ∧
        e.isOpen = true ∧ Accepted key entry ∧ m.data = e.memtable.data.insert key entry := by
  rw [put]
  by_cases hopen : (!e.isOpen) = true
  · rw [if_pos hopen]
    exact Or.inl ⟨_, e.wal, rfl⟩
  · rw [if_neg hopen]
    rcases e.wal.append ⟨WALEntryType.put, key, entry, 0⟩ with ⟨f | _, wal⟩
    · exact Or.inl ⟨f, wal, rfl⟩
    · dsimp only
      by_cases ha : Accepted key entry
      · obtain ⟨hok, hdata⟩ := MemTable.put_of_accepted (m := e.memtable) ha
        rw [hok]
        exact Or.inr ⟨wal, _, rfl, by simpa using hopen, ha, hdata⟩
      · obtain ⟨herror, hsame⟩ := MemTable.put_of_not_accepted (m := e.memtable) ha
        rw [hsame]
        rcases hresult : (e.memtable.put key entry).1 with f | ⟨⟩
        · exact Or.inl ⟨f, wal, rfl⟩
        · rw [hresult] at herror
          cases herror

/-- A `remove` reports an error and changes the log at most, or adds a deletion mark to the
memory table. -/
theorem remove_cases (e : LSMTreeEngine) (key : MultiLevelKey) (now : Timestamp) :
    (∃ f wal, e.remove key now = (.error f, { e with wal := wal })) ∨
      ∃ wal m, e.remove key now = (.ok (), { e with wal := wal, memtable := m }) ∧
        e.isOpen = true ∧
        m.data = e.memtable.data.insert key (deletionMark (e.memtable.data.find? key) now) := by
  rw [remove]
  by_cases hopen : (!e.isOpen) = true
  · rw [if_pos hopen]
    exact Or.inl ⟨_, e.wal, rfl⟩
  · rw [if_neg hopen]
    dsimp only
    rcases e.wal.append _ with ⟨f | _, wal⟩
    · exact Or.inl ⟨f, wal, rfl⟩
    · obtain ⟨hok, hdata⟩ := e.memtable.remove_eq key now
      dsimp only
      rw [hok]
      exact Or.inr ⟨wal, _, rfl, by simpa using hopen, hdata⟩

/-- A live entry in the memory table is what is read. -/
theorem get_of_memtable {e : LSMTreeEngine} (hopen : e.isOpen = true) (uninit : Uninit)
    {key : MultiLevelKey} {entry : DataEntry} (h : liveEntry e.memtable.data key = some entry) :
    (e.get uninit key).1 = .ok entry := by
  rw [get_eq hopen, answers, h]
  rfl

/-- A read of a key that the memory table treats as before. -/
theorem get_congr_memtable {e e' : LSMTreeEngine} {wal : WAL} {m : MemTable}
    (heq : e' = { e with wal := wal, memtable := m }) (uninit : Uninit) {key : MultiLevelKey}
    (h : m.data.find? key = e.memtable.data.find? key) :
    (e'.get uninit key).1 = (e.get uninit key).1 := by
  have hsame : e'.isOpen = e.isOpen := by rw [heq]
  cases hopen : e.isOpen with
  | false => rw [get_of_closed hopen, get_of_closed (hsame.trans hopen)]
  | true =>
      have hlive : liveEntry m.data key = liveEntry e.memtable.data key := by
        rw [liveEntry, liveEntry, h]
      rw [get_eq hopen, get_eq (hsame.trans hopen), answers, answers, ← hlive, heq]

/-- The record of a `put`. -/
def putRecord (key : MultiLevelKey) (entry : DataEntry) : WALEntry :=
  ⟨WALEntryType.put, key, entry, 0⟩

/-- The record of a `remove`, at clock reading `now`. -/
def removeRecord (key : MultiLevelKey) (now : Timestamp) : WALEntry :=
  ⟨WALEntryType.delete, key, { DataEntry.default now with deleted := true, timestamp := now }, 0⟩

/-- On an open log a `put` appends its record and asks the memory table. -/
theorem put_of_isOpen {e : LSMTreeEngine} (hopen : e.isOpen = true) (hwal : e.wal.isOpen = true)
    (key : MultiLevelKey) (entry : DataEntry) :
    e.put key entry = ((e.memtable.put key entry).1,
      { e with wal := (e.wal.append (putRecord key entry)).2
               memtable := (e.memtable.put key entry).2 }) := by
  rw [put, if_neg (by simp [hopen]), WAL.append, if_neg (by simp [hwal])]
  dsimp only
  rw [putRecord, WAL.append, if_neg (by simp [hwal])]

/-- The same for a `remove`. -/
theorem remove_of_isOpen {e : LSMTreeEngine} (hopen : e.isOpen = true)
    (hwal : e.wal.isOpen = true) (key : MultiLevelKey) (now : Timestamp) :
    e.remove key now = ((e.memtable.remove key now).1,
      { e with wal := (e.wal.append (removeRecord key now)).2
               memtable := (e.memtable.remove key now).2 }) := by
  rw [remove, if_neg (by simp [hopen]), WAL.append]
  dsimp only
  rw [if_neg (by simp [hwal]), removeRecord, WAL.append, if_neg (by simp [hwal])]

/-! ## Version checks -/

/-- The check of `put_if_version_match`: the entry read has the expected version,
or nothing is found and version 0 is expected. -/
def VersionMatches (read : Result DataEntry) (expectedVersion : Version) : Prop :=
  match read with
  | .ok current => current.version = expectedVersion
  | .error _ => expectedVersion = 0

instance (read : Result DataEntry) (expectedVersion : Version) :
    Decidable (VersionMatches read expectedVersion) :=
  match read with
  | .ok current => inferInstanceAs (Decidable (current.version = expectedVersion))
  | .error _ => inferInstanceAs (Decidable (expectedVersion = 0))

/-- A version-checked put is a read followed by a put of the next version, or by nothing. -/
theorem putIfVersionMatch_eq {e : LSMTreeEngine} (hopen : e.isOpen = true) (uninit : Uninit)
    (key : MultiLevelKey) (entry : DataEntry) (expectedVersion : Version) :
    (VersionMatches (e.get uninit key).1 expectedVersion ∧
        e.putIfVersionMatch uninit key entry expectedVersion
          = (e.get uninit key).2.put key { entry with version := expectedVersion + 1 }) ∨
      (¬ VersionMatches (e.get uninit key).1 expectedVersion ∧ ∃ message,
        e.putIfVersionMatch uninit key entry expectedVersion
          = (.error ⟨.versionConflict, message⟩, (e.get uninit key).2)) := by
  rw [putIfVersionMatch, if_neg (by simp [hopen])]
  rcases e.get uninit key with ⟨f | current, e'⟩
  · dsimp only [VersionMatches]
    by_cases hzero : expectedVersion = 0
    · rw [if_neg (not_not.mpr hzero)]
      exact Or.inl ⟨hzero, rfl⟩
    · rw [if_pos hzero]
      exact Or.inr ⟨hzero, _, rfl⟩
  · dsimp only [VersionMatches]
    by_cases hversion : current.version = expectedVersion
    · rw [if_neg (not_not.mpr hversion)]
      exact Or.inl ⟨hversion, rfl⟩
    · rw [if_pos hversion]
      exact Or.inr ⟨hversion, _, rfl⟩

/-- A version-checked removal is a read followed by a removal, or by nothing. -/
theorem removeIfVersionMatch_eq {e : LSMTreeEngine} (hopen : e.isOpen = true) (uninit : Uninit)
    (key : MultiLevelKey) (expectedVersion : Version) (now : Timestamp) :
    e.removeIfVersionMatch uninit key expectedVersion now
        = (e.get uninit key).2.remove key now ∨
      ∃ f, e.removeIfVersionMatch uninit key expectedVersion now
        = (.error f, (e.get uninit key).2) := by
  rw [removeIfVersionMatch, if_neg (by simp [hopen])]
  rcases e.get uninit key with ⟨f | current, e'⟩
  · exact Or.inr ⟨_, rfl⟩
  · dsimp only
    split_ifs with hversion
    · exact Or.inr ⟨_, rfl⟩
    · exact Or.inl rfl

section

variable {P : LSMTreeEngine → Prop} {e : LSMTreeEngine} {uninit : Uninit} {key : MultiLevelKey}

/-- What a read and a `put` after it keep, a version-checked update keeps. -/
theorem invariant_putIfVersionMatch (h : P e) (hread : P (e.get uninit key).2)
    (hwrite : ∀ entry, P ((e.get uninit key).2.put key entry).2) (entry : DataEntry)
    (expectedVersion : Version) : P (e.putIfVersionMatch uninit key entry expectedVersion).2 := by
  cases hopen : e.isOpen with
  | false =>
      rw [putIfVersionMatch, if_pos (by simp [hopen])]
      exact h
  | true =>
      rcases putIfVersionMatch_eq hopen uninit key entry expectedVersion with
        ⟨-, heq⟩ | ⟨-, message, heq⟩
      · rw [heq]
        exact hwrite _
      · rw [heq]
        exact hread

theorem invariant_removeIfVersionMatch {now : Timestamp} (h : P e) (hread : P (e.get uninit key).2)
    (hwrite : P ((e.get uninit key).2.remove key now).2) (expectedVersion : Version) :
    P (e.removeIfVersionMatch uninit key expectedVersion now).2 := by
  cases hopen : e.isOpen with
  | false =>
      rw [removeIfVersionMatch, if_pos (by simp [hopen])]
      exact h
  | true =>
      rcases removeIfVersionMatch_eq hopen uninit key expectedVersion now with heq | ⟨f, heq⟩
      · rw [heq]
        exact hwrite
      · rw [heq]
        exact hread

/-- What the flush of the memtable and a `sync` of the log keep, `flush` keeps. -/
theorem invariant_flush {first second : TableWrite} (h : P e)
    (hflush : e.isOpen = true → P (e.flushMemtable first second).2)
    (hsync : ∀ e : LSMTreeEngine, P e → P { e with wal := e.wal.sync.2 }) :
    P (e.flush first second).2 := by
  rw [flush]
  cases hopen : e.isOpen with
  | false => exact h
  | true =>
      have hflushed := hflush hopen
      rw [if_neg (by simp)]
      rcases hresult : e.flushMemtable first second with ⟨_ | _, e'⟩
      · rw [hresult] at hflushed
        exact hflushed
      · rw [hresult] at hflushed
        exact hsync e' hflushed

/-- What the flush of the memtable and compactions keep, the background thread keeps. -/
theorem invariant_backgroundWork {first second merged : TableWrite} (h : P e)
    (hflush : P (e.flushMemtable first second).2)
    (hcompact : ∀ e : LSMTreeEngine, P e → P (e.compactSstables merged).2) :
    P (e.backgroundWork first second merged) := by
  have hflushed : P (if e.memtable.shouldFlush then (e.flushMemtable first second).2 else e) := by
    split_ifs
    · exact hflush
    · exact h
  rw [backgroundWork]
  generalize (if e.memtable.shouldFlush then (e.flushMemtable first second).2 else e) = e'
    at hflushed ⊢
  split_ifs
  · exact hcompact e' hflushed
  · exact hflushed

end

/-! ## Opening -/

/-- A closed engine opens if its log can be replayed. -/
theorem open_of_replays {e : LSMTreeEngine} (hclosed : e.isOpen = false) {access : LogAccess}
    {w w' : WAL} (hopen : e.wal.open access = (.ok (), w)) {decoded : ℕ → Timestamp}
    {entries : List WALEntry} (hreplay : w.replayFrom 0 decoded = (.ok entries, w'))
    (uninit : Uninit) (applied : ℕ → Timestamp) :
    e.open uninit access decoded applied = (.ok (), loadSstables { e with
      wal := w', memtable := applyWalEntries applied 0 entries e.memtable, isOpen := true }
        uninit) := by
  rw [LSMTreeEngine.open, hclosed, if_neg Bool.false_ne_true, hopen]
  dsimp only
  rw [recoverFromWal]
  dsimp only
  rw [hreplay]
  rfl

/-- An `open` leaves files and tables alone, or loads the files. -/
theorem open_cases (e : LSMTreeEngine) (uninit : Uninit) (access : LogAccess)
    (decoded applied : ℕ → Timestamp) :
    (∃ r wal, e.open uninit access decoded applied = (r, { e with wal := wal })) ∨
      ∃ wal m, e.isOpen = false ∧ e.open uninit access decoded applied
        = (.ok (), loadSstables { e with wal := wal, memtable := m, isOpen := true } uninit) := by
  rw [LSMTreeEngine.open]
  split_ifs with hopen
  · exact Or.inl ⟨_, e.wal, rfl⟩
  · rcases e.wal.open access with ⟨f | _, wal⟩
    · exact Or.inl ⟨_, wal, rfl⟩
    · dsimp only
      rw [recoverFromWal]
      dsimp only
      rcases wal.replayFrom 0 decoded with ⟨f | entries, wal'⟩
      · exact Or.inl ⟨_, wal', rfl⟩
      · exact Or.inr ⟨wal', _, Bool.eq_false_of_not_eq_true hopen, rfl⟩

/-! ## The calls -/

/-- A public call of the engine, a round of the background thread, or a new
object on the same data directory. -/
inductive PublicCall where
  | get (key : MultiLevelKey)
  | put (key : MultiLevelKey) (entry : DataEntry)
  | putIfVersionMatch (key : MultiLevelKey) (entry : DataEntry) (expectedVersion : Version)
  | remove (key : MultiLevelKey) (now : Timestamp)
  | removeIfVersionMatch (key : MultiLevelKey) (expectedVersion : Version) (now : Timestamp)
  | rangeScan (query : RangeQuery)
  | multiGet (clock : ℕ → Timestamp) (keys : List MultiLevelKey)
  | multiPut (entries : List (MultiLevelKey × DataEntry))
  | flush (first second : TableWrite)
  | compact (merged : TableWrite)
  | backgroundWork (first second merged : TableWrite)
  | close (first second : TableWrite)
  | «open» (access : LogAccess) (decoded applied : ℕ → Timestamp)
  | recreate (maxSstables : ℕ)

/-- The engine after a call.  The background thread runs while the engine is open. -/
def callStep (e : LSMTreeEngine) (uninit : Uninit) : PublicCall → LSMTreeEngine
  | .get key => (e.get uninit key).2
  | .put key entry => (e.put key entry).2
  | .putIfVersionMatch key entry expectedVersion =>
      (e.putIfVersionMatch uninit key entry expectedVersion).2
  | .remove key now => (e.remove key now).2
  | .removeIfVersionMatch key expectedVersion now =>
      (e.removeIfVersionMatch uninit key expectedVersion now).2
  | .rangeScan query => (e.rangeScan uninit query).2
  | .multiGet clock keys => (e.multiGet uninit clock keys).2
  | .multiPut entries => (e.multiPut entries).2
  | .flush first second => (e.flush first second).2
  | .compact merged => (e.compact merged).2
  | .backgroundWork first second merged =>
      if e.isOpen then e.backgroundWork first second merged else e
  | .close first second => (e.close first second).2
  | .open access decoded applied => (e.open uninit access decoded applied).2
  | .recreate maxSstables => create e.dataDir e.dir e.wal.content maxSstables

/-- The engine after a sequence of calls. -/
def callRun (e : LSMTreeEngine) (uninit : Uninit) (calls : List PublicCall) : LSMTreeEngine :=
  calls.foldl (fun e call => e.callStep uninit call) e

end LSMTreeEngine

end QcDatabase
