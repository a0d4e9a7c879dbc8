/-
# File names and the order of the tables

The engine keeps its tables oldest first, and `load_sstables` sorts the files by
name, as the names hold the time of writing.  The two orders are the same as long as
the names in the list increase (`InRecencyOrder`).

A name is the local time in milliseconds, and names compare like these times
(`generateSstableFilename_lt_iff`).  So a flush keeps the order if it takes place in
a later millisecond than every table in the list; a compaction only drops tables, and
an `open` puts the files it finds behind the tables that are already there.
`inRecencyOrder_callStep_iff` says so for one call, `inRecencyOrder_iff_along` for
a run.
-/
import QcDatabase.Lib.FixedWidth
import QcDatabase.Storage.EngineLog

open FixedWidth

namespace QcDatabase

/-! ## Names and times -/

/-- The fields have the sizes they are written with. -/
structure LocalTime.InRange (t : LocalTime) : Prop where
  year : t.year < 10 ^ 4
  month : t.month < 10 ^ 2
  day : t.day < 10 ^ 2
  hour : t.hour < 10 ^ 2
  minute : t.minute < 10 ^ 2
  second : t.second < 10 ^ 2
  millisecond : t.millisecond < 10 ^ 3

/-- The fields as one number, the milliseconds last. -/
def LocalTime.rank (t : LocalTime) : ℕ :=
  (((((t.year * 10 ^ 2 + t.month) * 10 ^ 2 + t.day) * 10 ^ 2 + t.hour) * 10 ^ 2 + t.minute) * 10 ^ 2
    + t.second) * 10 ^ 3 + t.millisecond

theorem decimal_eq_numeral (width n : ℕ) : decimal width n = numeral Nat.digitChar 10 width n := by
  induction width generalizing n with
  | zero => rfl
  | succ width ih => rw [decimal, numeral, ih]

theorem agrees_decimal {width n n' : ℕ} (hn : n < 10 ^ width) (hn' : n' < 10 ^ width) :
    Agrees (decimal width n) (decimal width n') n n' := by
  rw [decimal_eq_numeral, decimal_eq_numeral]
  exact agrees_numeral (by decide) hn hn'

/-- Stamps compare like the times. -/
theorem LocalTime.agrees_stamp {t t' : LocalTime} (h : t.InRange) (h' : t'.InRange) :
    Agrees t.stamp t'.stamp t.rank t'.rank := by
  have hmonth := (agrees_decimal h.year h'.year).append (agrees_decimal h.month h'.month)
    h.month h'.month
  have hday := hmonth.append (agrees_decimal h.day h'.day) h.day h'.day
  have hhour := (hday.append_text ['_']).append (agrees_decimal h.hour h'.hour) h.hour h'.hour
  have hminute := hhour.append (agrees_decimal h.minute h'.minute) h.minute h'.minute
  have hsecond := hminute.append (agrees_decimal h.second h'.second) h.second h'.second
  exact (hsecond.append_text ['_']).append (agrees_decimal h.millisecond h'.millisecond)
    h.millisecond h'.millisecond

/-- **File names compare like the times they were made at.** -/
theorem generateSstableFilename_lt_iff (dataDir : String) {t t' : LocalTime} (h : t.InRange)
    (h' : t'.InRange) :
    generateSstableFilename dataDir t < generateSstableFilename dataDir t' ↔ t.rank < t'.rank := by
  have hname : ∀ t : LocalTime, (generateSstableFilename dataDir t).toList
      = (dataDir ++ "/sstable_").toList ++ (t.stamp ++ ".sst".toList) := by
    intro t
    rw [generateSstableFilename, String.toList_append, String.toList_ofList]
  rw [String.lt_iff_toList_lt, hname, hname]
  exact (((LocalTime.agrees_stamp h h').append_text _).text_append _).lt_iff

namespace LSMTreeEngine

/-! ## The names in the list -/

/-- The file names of the tables, oldest first. -/
def names (e : LSMTreeEngine) : List String := e.sstables.map SSTable.filename

/-- The files that `load_sstables` makes tables of, in the order of their names. -/
def loadedNames (uninit : Uninit) (dir : Directory) : List String :=
  (dir.keys.filter hasSstExtension).filter fun name =>
    Result.isOk ((SSTable.create name).loadIndex uninit dir).1

theorem map_filename_loadTables (uninit : Uninit) (dir : Directory) (files : List String) :
    (loadTables uninit dir files).map SSTable.filename = files.filter fun name =>
      Result.isOk ((SSTable.create name).loadIndex uninit dir).1 := by
  induction files with
  | nil => rfl
  | cons name files ih =>
      have hname := (SSTable.create name).loadIndex_filename uninit dir
      rw [loadTables, List.filter_cons]
      rcases hload : (SSTable.create name).loadIndex uninit dir with ⟨_ | _, t⟩
      · exact ih
      · rw [hload] at hname
        dsimp only
        rw [List.map_cons, ih, hname]
        rfl

theorem names_loadSstables (e : LSMTreeEngine) (uninit : Uninit) :
    (e.loadSstables uninit).names = e.names ++ loadedNames uninit e.dir := by
  rw [names, loadSstables]
  dsimp only
  rw [List.map_append, map_filename_loadTables]
  rfl

/-- They are loaded in increasing order. -/
theorem pairwise_loadedNames (uninit : Uninit) (dir : Directory) :
    (loadedNames uninit dir).Pairwise (· < ·) :=
  (dir.keys_sorted.filter _).filter _

/-- The names in the list increase, and a restart finds these tables in the same order. -/
structure InRecencyOrder (uninit : Uninit) (e : LSMTreeEngine) : Prop where
  increasing : e.names.Pairwise (· < ·)
  reloaded : ((create e.dataDir e.dir e.wal.content e.maxSstables).loadSstables uninit).names.filter
      (fun name => name ∈ e.names)
    = e.names.filter fun name =>
      name ∈ ((create e.dataDir e.dir e.wal.content e.maxSstables).loadSstables uninit).names

/-- It is enough that the names increase, as there is one increasing list of given names. -/
theorem inRecencyOrder_iff (uninit : Uninit) (e : LSMTreeEngine) :
    e.InRecencyOrder uninit ↔ e.names.Pairwise (· < ·) := by
  refine ⟨InRecencyOrder.increasing, fun h => ⟨h, ?_⟩⟩
  rw [names_loadSstables]
  refine SortedMap.eq_of_mem_iff ((pairwise_loadedNames uninit e.dir).filter _) (h.filter _) ?_
  intro name
  simp only [List.mem_filter, decide_eq_true_eq]
  exact and_comm

/-! ## What the calls do to the names -/

/-- Reading leaves the names alone. -/
theorem names_withSstables {e : LSMTreeEngine} {uninit : Uninit} {ts : List SSTable}
    (h : RereadAll uninit e.dir e.sstables ts) : (e.withSstables ts).names = e.names := by
  refine h.map_eq fun t t' ht => ?_
  rcases ht with rfl | rfl
  · rfl
  · exact t.ensureIndex_filename uninit e.dir

theorem names_get (e : LSMTreeEngine) (uninit : Uninit) (key : MultiLevelKey) :
    (e.get uninit key).2.names = e.names := by
  obtain ⟨ts, hget, hreread⟩ := e.get_frame uninit key
  rw [hget, names_withSstables hreread]

theorem names_put (e : LSMTreeEngine) (key : MultiLevelKey) (entry : DataEntry) :
    (e.put key entry).2.names = e.names := by
  rcases e.put_cases key entry with ⟨f, wal, heq⟩ | ⟨wal, m, heq, -⟩
  · rw [heq]
    rfl
  · rw [heq]
    rfl

theorem names_remove (e : LSMTreeEngine) (key : MultiLevelKey) (now : Timestamp) :
    (e.remove key now).2.names = e.names := by
  rcases e.remove_cases key now with ⟨f, wal, heq⟩ | ⟨wal, m, heq, -⟩
  · rw [heq]
    rfl
  · rw [heq]
    rfl

/-- The name of the table, if its write reports success. -/
def writtenName (e : LSMTreeEngine) (w : TableWrite) : List String :=
  if w.outcome.reportsOk then [e.filenameOf w] else []

/-- The names of the tables that a flush writes. -/
def flushedNames (e : LSMTreeEngine) (first second : TableWrite) : List String :=
  if e.memtable.size = 0 then []
  else
    match e.immutableMemtable with
    | none => e.writtenName second
    | some m =>
        if m.size = 0 ∨ first.outcome.reportsOk = false then []
        else e.filenameOf first :: e.writtenName second

/-- A write reports success iff there are entries and nothing that it looks at goes wrong. -/
theorem write_create_cases (name : String) (dir : Directory)
    (m : SortedMap MultiLevelKey DataEntry) (outcome : WriteOutcome) :
    ((m.entries = [] ∨ outcome.reportsOk = false) ∧
        ∃ f t dir', (SSTable.create name).write dir m outcome = (.error f, t, dir')) ∨
      ((m.entries ≠ [] ∧ outcome.reportsOk = true) ∧
        ∃ t dir', (SSTable.create name).write dir m outcome = (.ok (), t, dir') ∧
          t.filename = name) := by
  rw [SSTable.write.eq_def]
  by_cases hempty : m.entries = []
  · rw [if_pos (by simp [hempty])]
    exact Or.inl ⟨Or.inl hempty, _, _, _, rfl⟩
  · rw [if_neg (by simp [hempty])]
    cases outcome with
    | notOpened => exact Or.inl ⟨Or.inr rfl, _, _, _, rfl⟩
    | threw what left => exact Or.inl ⟨Or.inr rfl, _, _, _, rfl⟩
    | written => exact Or.inr ⟨⟨hempty, rfl⟩, _, _, rfl, rfl⟩
    | short taken left => exact Or.inr ⟨⟨hempty, rfl⟩, _, _, rfl, rfl⟩

theorem names_flushCurrent {e : LSMTreeEngine} (hsize : e.memtable.size ≠ 0) (w : TableWrite) :
    (e.flushCurrent w).2.names = e.names ++ e.writtenName w := by
  have hne : e.memtable.data.entries ≠ [] := fun h => hsize ((size_eq_zero_iff _).mpr h)
  rw [flushCurrent, MemTable.getAllData, writtenName]
  rcases write_create_cases (e.filenameOf w) e.dir e.memtable.data w.outcome with
    ⟨hfails, f, t, dir, hwrite⟩ | ⟨hwritten, t, dir, hwrite, hname⟩
  · rw [hwrite, if_neg (Bool.eq_false_iff.mp (hfails.resolve_left hne)), List.append_nil]
    rfl
  · rw [hwrite, if_pos hwritten.2, ← hname]
    exact List.map_append

theorem names_flushMemtable (e : LSMTreeEngine) (first second : TableWrite) :
    (e.flushMemtable first second).2.names = e.names ++ e.flushedNames first second := by
  rw [flushMemtable, flushedNames]
  by_cases hsize : e.memtable.size = 0
  · rw [if_pos hsize, if_pos hsize, List.append_nil]
  · rw [if_neg hsize, if_neg hsize]
    rcases himm : e.immutableMemtable with _ | m
    · exact names_flushCurrent hsize second
    · dsimp only
      rw [MemTable.getAllData]
      rcases write_create_cases (e.filenameOf first) e.dir m.data first.outcome with
        ⟨hfails, f, t, dir, hwrite⟩ | ⟨⟨hne, hwritten⟩, t, dir, hwrite, hname⟩
      · rw [hwrite, if_pos (hfails.imp_left (size_eq_zero_iff m).mpr), List.append_nil]
        rfl
      · have hsecond := names_flushCurrent
          (e := { e with dir := dir, sstables := e.sstables ++ [t] }) hsize second
        rw [hwrite, if_neg (not_or.mpr ⟨fun h => hne ((size_eq_zero_iff m).mp h),
          Bool.not_eq_false _ ▸ hwritten⟩)]
        refine hsecond.trans ?_
        rw [names, List.map_append, List.map_singleton, hname, List.append_assoc]
        rfl

/-- The oldest two of `n` tables are merged, if there are two. -/
def mergedTables (n : ℕ) : ℕ := if n < 2 then 0 else 2

theorem names_compactSstables (e : LSMTreeEngine) (w : TableWrite) :
    (e.compactSstables w).2.names = e.names.drop (mergedTables e.names.length) := by
  rcases hts : e.sstables with _ | ⟨sstable1, _ | ⟨sstable2, sstables⟩⟩
  · rw [compactSstables_of_lt (by rw [hts]; decide), names, hts]
    rfl
  · rw [compactSstables_of_lt (by rw [hts]; exact Nat.lt_succ_self 1), names, hts]
    rfl
  · rw [compactSstables_eq hts, names, names, hts]
    rfl

/-- The engine is closed, and its log can be opened and replayed. -/
def opens (e : LSMTreeEngine) (access : LogAccess) (decoded : ℕ → Timestamp) : Bool :=
  !e.isOpen && match e.wal.open access with
    | (.error _, _) => false
    | (.ok _, w) => Result.isOk (w.replayFrom 0 decoded).1

/-- An `open` loads the files, or leaves the tables alone. -/
theorem names_open (e : LSMTreeEngine) (uninit : Uninit) (access : LogAccess)
    (decoded applied : ℕ → Timestamp) : (e.open uninit access decoded applied).2.names
      = e.names ++ if e.opens access decoded then loadedNames uninit e.dir else [] := by
  cases hopen : e.isOpen with
  | true =>
      rw [LSMTreeEngine.open, if_pos hopen, opens, hopen]
      exact (List.append_nil _).symm
  | false =>
      rcases hwal : e.wal.open access with ⟨f | _, w⟩
      · have hopens : e.opens access decoded = false := by rw [opens, hopen, hwal]; rfl
        rw [LSMTreeEngine.open, hopen, if_neg Bool.false_ne_true, hwal, hopens]
        exact (List.append_nil _).symm
      · rcases hreplay : w.replayFrom 0 decoded with ⟨f | entries, w'⟩
        · have hopens : e.opens access decoded = false := by
            rw [opens, hopen, hwal]
            dsimp only
            rw [hreplay]
            rfl
          rw [LSMTreeEngine.open, hopen, if_neg Bool.false_ne_true, hwal, hopens]
          dsimp only
          rw [recoverFromWal]
          dsimp only
          rw [hreplay]
          exact (List.append_nil _).symm
        · have hopens : e.opens access decoded = true := by
            rw [opens, hopen, hwal]
            dsimp only
            rw [hreplay]
            rfl
          rw [open_of_replays hopen hwal hreplay, hopens, if_pos rfl]
          exact names_loadSstables { e with
            wal := w', memtable := applyWalEntries applied 0 entries e.memtable, isOpen := true } uninit

/-- The names that a call adds to the list. -/
def addedNames (e : LSMTreeEngine) (uninit : Uninit) : PublicCall → List String
  | .flush first second => if e.isOpen then e.flushedNames first second else []
  | .backgroundWork first second _ =>
      if e.isOpen && e.memtable.shouldFlush then e.flushedNames first second else []
  | .close first second => if e.isOpen then e.flushedNames first second else []
  | .open access decoded _ =>
      if e.opens access decoded then loadedNames uninit e.dir else []
  | _ => []

/-- The number of tables that a call drops, the oldest ones, behind what it adds. -/
def droppedTables (e : LSMTreeEngine) (uninit : Uninit) : PublicCall → ℕ
  | .compact _ => if e.isOpen then mergedTables e.names.length else 0
  | .backgroundWork first second merged =>
      let listed := e.names.length
        + (e.addedNames uninit (.backgroundWork first second merged)).length
      if e.isOpen && decide (e.maxSstables < listed) then mergedTables listed else 0
  | .recreate _ => e.names.length
  | _ => 0

theorem names_close (e : LSMTreeEngine) (first second : TableWrite) :
    (e.close first second).2.names
      = e.names ++ if e.isOpen then e.flushedNames first second else [] := by
  rw [close]
  cases hopen : e.isOpen with
  | false => exact (List.append_nil _).symm
  | true =>
      rw [if_neg (by simp), if_pos rfl]
      by_cases hsize : e.memtable.size = 0
      · rw [if_neg (not_not.mpr hsize), flushedNames, if_pos hsize]
        exact (List.append_nil _).symm
      · rw [if_pos hsize]
        exact names_flushMemtable e first second

theorem names_flush (e : LSMTreeEngine) (first second : TableWrite) :
    (e.flush first second).2.names
      = e.names ++ if e.isOpen then e.flushedNames first second else [] := by
  rw [flush]
  cases hopen : e.isOpen with
  | false => exact (List.append_nil _).symm
  | true =>
      have hflush := names_flushMemtable e first second
      rw [if_neg (by simp), if_pos rfl]
      rcases hresult : e.flushMemtable first second with ⟨_ | _, e'⟩
      · rw [hresult] at hflush
        exact hflush
      · rw [hresult] at hflush
        exact hflush

/-- A round of the background thread flushes and then merges, each if it is time. -/
theorem names_backgroundWork (e : LSMTreeEngine) (first second merged : TableWrite) :
    ∃ added, added = (if e.memtable.shouldFlush then e.flushedNames first second else []) ∧
      (e.backgroundWork first second merged).names
        = (e.names ++ added).drop
          (if e.maxSstables < e.names.length + added.length
            then mergedTables (e.names.length + added.length) else 0) := by
  refine ⟨_, rfl, ?_⟩
  set added := if e.memtable.shouldFlush then e.flushedNames first second else [] with hadded
  have hflushed : ∃ e', (if e.memtable.shouldFlush then (e.flushMemtable first second).2 else e) = e'
      ∧ e'.names = e.names ++ added ∧ e'.maxSstables = e.maxSstables := by
    refine ⟨_, rfl, ?_⟩
    rw [hadded]
    split_ifs
    · refine ⟨names_flushMemtable e first second, ?_⟩
      obtain ⟨_, _, _, _, _, -, heq⟩ := e.flushMemtable_frame first second
      rw [heq]
    · exact ⟨(List.append_nil _).symm, rfl⟩
  obtain ⟨e', he', hnames, hmax⟩ := hflushed
  have hlength : e'.sstables.length = e.names.length + added.length := by
    rw [← List.length_append, ← hnames, names, List.length_map]
  rw [backgroundWork, he', needCompaction, hmax, hlength]
  simp only [decide_eq_true_eq]
  split_ifs
  · rw [names_compactSstables, hnames, List.length_append]
  · exact hnames

/-- **What a call does to the names**: it adds some at the end and drops some in front. -/
theorem names_callStep (e : LSMTreeEngine) (uninit : Uninit) (call : PublicCall) :
    (e.callStep uninit call).names
      = (e.names ++ e.addedNames uninit call).drop (e.droppedTables uninit call) := by
  -- most calls neither add nor drop a table
  have hsame : ∀ e' : LSMTreeEngine, e'.names = e.names → e'.names = (e.names ++ []).drop 0 := by
    intro e' h
    rw [List.append_nil, List.drop_zero, h]
  cases call with
  | get key => exact hsame _ (names_get e uninit key)
  | put key entry => exact hsame _ (names_put e key entry)
  | putIfVersionMatch key entry expectedVersion =>
      have hread := names_get e uninit key
      refine hsame _ (invariant_putIfVersionMatch (P := fun e' => e'.names = e.names) rfl hread
        (fun entry => ?_) entry expectedVersion)
      exact (names_put _ key entry).trans hread
  | remove key now => exact hsame _ (names_remove e key now)
  | removeIfVersionMatch key expectedVersion now =>
      have hread := names_get e uninit key
      refine hsame _ (invariant_removeIfVersionMatch (P := fun e' => e'.names = e.names) rfl hread
        ?_ expectedVersion)
      exact (names_remove _ key now).trans hread
  | rangeScan query =>
      refine hsame _ ?_
      obtain ⟨ts, hscan, hreread⟩ := e.rangeScan_frame uninit query
      rw [callStep, hscan, names_withSstables hreread]
  | multiGet clock keys =>
      refine hsame _ (invariant_multiGetFrom (P := fun e' => e'.names = e.names) ?_ rfl clock 0 keys)
      exact fun e' key h => (names_get e' uninit key).trans h
  | multiPut entries =>
      refine hsame _ (invariant_multiPut (P := fun e' => e'.names = e.names) ?_ rfl)
      exact fun e' entry _ h => (names_put e' entry.1 entry.2).trans h
  | flush first second => exact names_flush e first second
  | compact merged =>
      have hadded : e.addedNames uninit (.compact merged) = [] := rfl
      rw [callStep, compact, hadded, droppedTables, List.append_nil]
      cases hopen : e.isOpen with
      | false => rfl
      | true => exact names_compactSstables e merged
  | backgroundWork first second merged =>
      rw [callStep, addedNames, droppedTables, addedNames]
      cases hopen : e.isOpen with
      | false => exact hsame _ rfl
      | true =>
          obtain ⟨added, hadded, heq⟩ := names_backgroundWork e first second merged
          rw [if_pos rfl, heq]
          simp only [Bool.true_and, decide_eq_true_eq, hadded]
  | close first second => exact names_close e first second
  | «open» access decoded applied => exact names_open e uninit access decoded applied
  | recreate maxSstables =>
      have hadded : e.addedNames uninit (.recreate maxSstables) = [] := rfl
      rw [callStep, hadded, droppedTables, List.append_nil, List.drop_length]
      rfl

/-! ## Which calls keep the order -/

/-- The names that a call adds, and that stay, increase and come after the others that
stay. -/
def AddsNewest (uninit : Uninit) (e : LSMTreeEngine) (call : PublicCall) : Prop :=
  let added := (e.addedNames uninit call).drop (e.droppedTables uninit call - e.names.length)
  added.Pairwise (· < ·) ∧ ∀ old ∈ e.names.drop (e.droppedTables uninit call), ∀ new ∈ added, old < new

/-- **Step lemma.**  These are the calls that keep the order. -/
theorem inRecencyOrder_callStep_iff {uninit : Uninit} {e : LSMTreeEngine}
    (h : e.InRecencyOrder uninit) (call : PublicCall) :
    (e.callStep uninit call).InRecencyOrder uninit ↔ AddsNewest uninit e call := by
  rw [inRecencyOrder_iff] at h ⊢
  rw [names_callStep, List.drop_append, List.pairwise_append, AddsNewest]
  exact and_iff_right h.drop

/-- A flush of the memory table keeps the order iff it takes place later than all tables in
the list were written. -/
theorem addsNewest_flush_iff {uninit : Uninit} {e : LSMTreeEngine} (hopen : e.isOpen = true)
    (hsize : e.memtable.size ≠ 0) (himm : e.immutableMemtable = none) {times : List LocalTime}
    (htimes : e.names = times.map (generateSstableFilename e.dataDir))
    (hrange : ∀ t ∈ times, t.InRange) (first : TableWrite) {second : TableWrite}
    (hsecond : second.now.InRange) (hwritten : second.outcome.reportsOk = true) :
    AddsNewest uninit e (.flush first second) ↔ ∀ t ∈ times, t.rank < second.now.rank := by
  have hadded : e.addedNames uninit (.flush first second) = [e.filenameOf second] := by
    rw [addedNames, if_pos hopen, flushedNames, if_neg hsize, himm, writtenName, if_pos hwritten]
  have hdropped : e.droppedTables uninit (.flush first second) = 0 := rfl
  rw [AddsNewest, hadded, hdropped, Nat.zero_sub, List.drop_zero, List.drop_zero, htimes]
  simp only [List.pairwise_singleton, List.mem_singleton, forall_eq, true_and, List.forall_mem_map]
  refine forall₂_congr fun t ht => ?_
  exact generateSstableFilename_lt_iff e.dataDir (hrange t ht) hsecond

/-- **When file names keep the recency order.**  They do throughout a run iff every call in
it adds the newest names. -/
theorem inRecencyOrder_iff_along (uninit : Uninit) (dataDir : String) (dir : Directory)
    (log : Option Bytes) (maxSstables : ℕ) (calls : List PublicCall) :
    (∀ before, before <+: calls →
      ((create dataDir dir log maxSstables).callRun uninit before).InRecencyOrder uninit) ↔
    StepRun.Along (fun e call => callStep e uninit call) (AddsNewest uninit)
      (create dataDir dir log maxSstables) calls := by
  refine StepRun.forall_prefix_iff_along (fun _ => True) (InRecencyOrder uninit)
    (fun _ _ _ => trivial) (fun e call _ h => inRecencyOrder_callStep_iff h call) trivial ?_
  exact (inRecencyOrder_iff _ _).mpr List.Pairwise.nil

/-- A put and a flush at one and the same time, twice. -/
def flushTwice : List PublicCall :=
  let write : TableWrite := ⟨⟨2024, 1, 1, 0, 0, 0, 0⟩, .written⟩
  [.open .readWrite (fun _ => 0) fun _ => 0, .put ⟨[97], []⟩ ⟨[1], 1, 0, false⟩, .flush write write,
    .put ⟨[98], []⟩ ⟨[2], 1, 0, false⟩, .flush write write]

/-- Both tables have the same name. -/
theorem not_inRecencyOrder_flushTwice :
    ¬ ((create "d" SortedMap.empty none 10).callRun ⟨0, 0, 0, 0, 0⟩ flushTwice).InRecencyOrder
      ⟨0, 0, 0, 0, 0⟩ := by
  intro h
  have hnames : ((create "d" SortedMap.empty none 10).callRun ⟨0, 0, 0, 0, 0⟩ flushTwice).names
      = [generateSstableFilename "d" ⟨2024, 1, 1, 0, 0, 0, 0⟩,
        generateSstableFilename "d" ⟨2024, 1, 1, 0, 0, 0, 0⟩] := rfl
  have hincreasing := h.increasing
  rw [hnames, List.pairwise_pair] at hincreasing
  exact lt_irrefl _ hincreasing

end LSMTreeEngine

end QcDatabase
