/-
# What client calls can write to the log

A call logs its record first and lets the memory table check the sizes of key
and value afterwards; `replay_from` has a limit of its own, 1 MiB for a record.
A call that was refused can so have left a record that the next `open` refuses.

`logRecords` are the records that a sequence of calls hands to `WAL::append`,
`LogReadable` says that the log of an engine can be read back, and
`logReadable_iff` that this depends on the length of the records alone.  Keys may
hold NUL bytes: such a record reads back as another one with the same bytes.
-/
import QcDatabase.Storage.PublicCalls

namespace QcDatabase

/-! ## Frames that were accepted -/

namespace WALEntry

/-- The length of a serialized entry. -/
theorem length_serialize (e : WALEntry) : e.serialize.length
    = 11 + e.key.primaryKey.length + e.key.secondaryKey.length + e.data.value.length := by
  rw [e.serialize_eq]
  simp only [List.length_cons, List.length_append, LittleEndian.length_u64Bytes]
  omega

/-- Frames that begin the same string of bytes are of the same length, if the
length fields hold the lengths of the records. -/
theorem length_serialize_of_frame_append {e e' : WALEntry} (hlen : e.serialize.length < 2 ^ 32)
    (hlen' : e'.serialize.length < 2 ^ 32) {rest rest' : Bytes}
    (h : e.frame ++ rest = e'.frame ++ rest') : e.serialize.length = e'.serialize.length := by
  rw [frame, frame] at h
  simp only [List.append_assoc] at h
  have hfield := List.append_inj_left h
    (by rw [LittleEndian.length_u32Bytes, LittleEndian.length_u32Bytes])
  exact LittleEndian.eq_of_u32Bytes_ofNat hlen hlen' hfield

/-- Records below 4 GiB whose frames are those of loggable entries have a loggable length. -/
theorem length_le_of_frames {records es : List WALEntry} (hes : ∀ e ∈ es, e.Loggable)
    (hlen : ∀ r ∈ records, r.serialize.length < 2 ^ 32) {tail : Bytes} (htail : tail.length < 8)
    (h : records.flatMap WALEntry.frame = es.flatMap WALEntry.frame ++ tail) :
    ∀ r ∈ records, r.serialize.length ≤ WAL.maxRecordLength := by
  induction records generalizing es with
  | nil =>
      intro r hr
      exact absurd hr List.not_mem_nil
  | cons r records ih =>
      rcases es with _ | ⟨e, es⟩
      · -- less than a header is left, and the frame of `r` has one
        have hlength := congrArg List.length h
        rw [List.flatMap_cons, List.length_append, r.length_frame, List.flatMap_nil,
          List.nil_append] at hlength
        omega
      · have he := (hes e List.mem_cons_self).length_le
        have hlt : e.serialize.length < 2 ^ 32 := by
          rw [WAL.maxRecordLength] at he
          omega
        rw [List.flatMap_cons, List.flatMap_cons, List.append_assoc] at h
        have hsame := length_serialize_of_frame_append (hlen r List.mem_cons_self) hlt h
        have hrest := List.append_inj_right h
          (by rw [r.length_frame, e.length_frame, hsame])
        rw [List.forall_mem_cons]
        refine ⟨hsame ▸ he, ih ?_ ?_ hrest⟩
        · exact fun e' he' => hes e' (List.mem_cons_of_mem _ he')
        · exact fun r' hr' => hlen r' (List.mem_cons_of_mem _ hr')

/-- Records of an allowed length have the frames of loggable entries. -/
theorem exists_loggable_frames {records : List WALEntry}
    (h : ∀ r ∈ records, r.serialize.length ≤ WAL.maxRecordLength) :
    ∃ es : List WALEntry, (∀ e ∈ es, e.Loggable) ∧
      es.flatMap WALEntry.frame = records.flatMap WALEntry.frame := by
  induction records with
  | nil => exact ⟨[], by simp, rfl⟩
  | cons r records ih =>
      rw [List.forall_mem_cons] at h
      obtain ⟨e, he, hframe⟩ := r.exists_loggable h.1
      obtain ⟨es, hes, hframes⟩ := ih h.2
      refine ⟨e :: es, List.forall_mem_cons.mpr ⟨he, hes⟩, ?_⟩
      rw [List.flatMap_cons, List.flatMap_cons, hframe, hframes]

end WALEntry

/-- A log is read back iff its records have an allowed length. -/
theorem WAL.exists_replayFrom_iff (walFile : String) (now : ℕ → Timestamp)
    {records : List WALEntry} :
    ((∀ r ∈ records, r.serialize.length ≤ maxRecordLength) →
      ∃ out, ((opened walFile (records.flatMap WALEntry.frame)).replayFrom 0 now).1 = .ok out) ∧
    ((∀ r ∈ records, r.serialize.length < 2 ^ 32) →
      (∃ out, ((opened walFile (records.flatMap WALEntry.frame)).replayFrom 0 now).1 = .ok out) →
      ∀ r ∈ records, r.serialize.length ≤ maxRecordLength) := by
  constructor
  · intro h
    obtain ⟨es, hes, hframes⟩ := WALEntry.exists_loggable_frames h
    have hrun := replayFrom_opened walFile now hes (show ([] : Bytes).length < 8 by decide)
    rw [List.append_nil, hframes] at hrun
    exact ⟨_, hrun⟩
  · rintro hlen ⟨out, hrun⟩
    obtain ⟨hout, tail, hfile, htail⟩ := frames_of_replayFrom hrun
    exact WALEntry.length_le_of_frames hout hlen htail hfile

/-! ## Calls and their records -/

/-- A client call that writes. -/
inductive ClientWrite where
  | put (key : MultiLevelKey) (entry : DataEntry)
  | putIfVersionMatch (key : MultiLevelKey) (entry : DataEntry) (expectedVersion : Version)
  | remove (key : MultiLevelKey) (now : Timestamp)
  | multiPut (entries : List (MultiLevelKey × DataEntry))

namespace LSMTreeEngine

/-- The result of a writing call and the engine after it. -/
def callWrite (e : LSMTreeEngine) (uninit : Uninit) : ClientWrite → Result Unit × LSMTreeEngine
  | .put key entry => e.put key entry
  | .putIfVersionMatch key entry expectedVersion =>
      e.putIfVersionMatch uninit key entry expectedVersion
  | .remove key now => e.remove key now
  | .multiPut entries => e.multiPut entries

/-- The engine after a sequence of writing calls, whatever they return. -/
def callWrites (e : LSMTreeEngine) (uninit : Uninit) (calls : List ClientWrite) : LSMTreeEngine :=
  calls.foldl (fun e call => (e.callWrite uninit call).2) e

/-- The records of a `multi_put`: it stops behind the first entry that is refused. -/
def multiPutRecords : List (MultiLevelKey × DataEntry) → List WALEntry
  | [] => []
  | (key, entry) :: entries =>
      putRecord key entry :: if Accepted key entry then multiPutRecords entries else []

/-- The records a call on an open engine hands to `WAL::append`. -/
def records (e : LSMTreeEngine) (uninit : Uninit) : ClientWrite → List WALEntry
  | .put key entry => [putRecord key entry]
  | .putIfVersionMatch key entry expectedVersion =>
      if VersionMatches (e.get uninit key).1 expectedVersion then
        [putRecord key { entry with version := expectedVersion + 1 }]
      else []
  | .remove key now => [removeRecord key now]
  | .multiPut entries => multiPutRecords entries

/-- The records of a sequence of calls. -/
def logRecords (e : LSMTreeEngine) (uninit : Uninit) : List ClientWrite → List WALEntry
  | [] => []
  | call :: calls =>
      (if e.isOpen then e.records uninit call else []) ++
        (e.callWrite uninit call).2.logRecords uninit calls

/-! ## The log after the calls -/

theorem multiPut_wal {e : LSMTreeEngine} (hopen : e.isOpen = true) (hwal : e.wal.isOpen = true)
    (entries : List (MultiLevelKey × DataEntry)) :
    (e.multiPut entries).2.wal = e.wal.appendAll (multiPutRecords entries) ∧
      (e.multiPut entries).2.isOpen = true := by
  induction entries generalizing e with
  | nil => exact ⟨rfl, hopen⟩
  | cons head entries ih =>
      obtain ⟨key, entry⟩ := head
      rw [multiPut, multiPutRecords, put_of_isOpen hopen hwal]
      by_cases ha : Accepted key entry
      · rw [(MemTable.put_of_accepted ha).1, if_pos ha]
        have hnext := WAL.isOpen_append e.wal (putRecord key entry)
        exact ih (e := { e with
          wal := (e.wal.append (putRecord key entry)).2
          memtable := (e.memtable.put key entry).2 }) hopen (hnext.trans hwal)
      · rcases hput : (e.memtable.put key entry).1 with f | ⟨⟩
        · -- the record of the refused entry is in the log, and the loop ends
          rw [if_neg ha]
          exact ⟨rfl, hopen⟩
        · have hrefused := (MemTable.put_of_not_accepted (m := e.memtable) ha).1
          rw [hput] at hrefused
          cases hrefused

/-- **Step lemma.**  A call appends its records. -/
theorem callWrite_wal {e : LSMTreeEngine} (hopen : e.isOpen = true) (hwal : e.wal.isOpen = true)
    (uninit : Uninit) (call : ClientWrite) :
    (e.callWrite uninit call).2.wal = e.wal.appendAll (e.records uninit call) ∧
      (e.callWrite uninit call).2.isOpen = true := by
  cases call with
  | put key entry =>
      rw [callWrite, put_of_isOpen hopen hwal]
      exact ⟨rfl, hopen⟩
  | putIfVersionMatch key entry expectedVersion =>
      obtain ⟨ts, hget, -⟩ := e.get_frame uninit key
      rw [callWrite, records]
      rcases putIfVersionMatch_eq hopen uninit key entry expectedVersion with
        ⟨hmatch, heq⟩ | ⟨hmatch, message, heq⟩
      · rw [heq, if_pos hmatch, hget,
          put_of_isOpen (e := e.withSstables ts) hopen hwal]
        exact ⟨rfl, hopen⟩
      · rw [heq, if_neg hmatch, hget]
        exact ⟨rfl, hopen⟩
  | remove key now =>
      rw [callWrite, remove_of_isOpen hopen hwal]
      exact ⟨rfl, hopen⟩
  | multiPut entries => exact multiPut_wal hopen hwal entries

/-- On an engine that is not open a call does nothing. -/
theorem callWrite_of_closed {e : LSMTreeEngine} (hclosed : e.isOpen = false) (uninit : Uninit)
    (call : ClientWrite) : (e.callWrite uninit call).2 = e := by
  cases call with
  | put key entry => rw [callWrite, put, if_pos (by simp [hclosed])]
  | putIfVersionMatch key entry expectedVersion =>
      rw [callWrite, putIfVersionMatch, if_pos (by simp [hclosed])]
  | remove key now => rw [callWrite, remove, if_pos (by simp [hclosed])]
  | multiPut entries =>
      cases entries with
      | nil => rfl
      | cons head entries =>
          rw [callWrite, multiPut, put, if_pos (by simp [hclosed])]

/-- **The log of a sequence of calls** is its old content and the frames of the records. -/
theorem callWrites_wal {e : LSMTreeEngine} (hwal : e.wal.isOpen = true) (uninit : Uninit)
    (calls : List ClientWrite) :
    (e.callWrites uninit calls).wal = e.wal.appendAll (e.logRecords uninit calls) := by
  induction calls generalizing e with
  | nil => rfl
  | cons call calls ih =>
      rw [callWrites, List.foldl_cons, ← callWrites, logRecords, WAL.appendAll_append]
      rcases hopen : e.isOpen with _ | _
      · rw [callWrite_of_closed hopen, if_neg Bool.false_ne_true]
        exact ih hwal
      · obtain ⟨hlog, hstill⟩ := callWrite_wal hopen hwal uninit call
        rw [if_pos rfl, ← hlog]
        apply ih
        rw [hlog, WAL.isOpen_appendAll, hwal]

/-! ## Reading the log back -/

/-- The log can be replayed, and an engine opens on it. -/
structure LogReadable (log : Bytes) : Prop where
  replays : ∀ walFile now, ∃ out, ((WAL.opened walFile log).replayFrom 0 now).1 = .ok out
  opens : ∀ dataDir dir maxSstables uninit decoded applied,
    ((create dataDir dir (some log) maxSstables).open uninit .readWrite decoded applied).1 = .ok ()

/-- An engine opens on every log that can be replayed. -/
theorem logReadable_of_replays {log : Bytes}
    (h : ∀ walFile now, ∃ out, ((WAL.opened walFile log).replayFrom 0 now).1 = .ok out) :
    LogReadable log := by
  refine ⟨h, ?_⟩
  intro dataDir dir maxSstables uninit decoded applied
  obtain ⟨out, hrun⟩ := h (dataDir ++ "/wal.log") decoded
  have hopened : (create dataDir dir (some log) maxSstables).wal.open .readWrite
      = (.ok (), WAL.opened (dataDir ++ "/wal.log") log) := rfl
  rcases hreplay : (WAL.opened (dataDir ++ "/wal.log") log).replayFrom 0 decoded with ⟨_ | _, wal⟩
  · rw [hreplay] at hrun
    cases hrun
  · rw [open_of_replays rfl hopened hreplay]

/-- The engine with an empty log that is open. -/
def onEmptyLog (e : LSMTreeEngine) : LSMTreeEngine :=
  { e with wal := WAL.opened (e.dataDir ++ "/wal.log") [] }

/-- The log of calls that begin on an empty log. -/
theorem bytes_callWrites (e : LSMTreeEngine) (uninit : Uninit) (calls : List ClientWrite) :
    (e.onEmptyLog.callWrites uninit calls).wal.bytes
      = (e.onEmptyLog.logRecords uninit calls).flatMap WALEntry.frame := by
  have hend := WAL.atEnd_opened (e.dataDir ++ "/wal.log") []
  rw [callWrites_wal (e := e.onEmptyLog) hend.isOpen]
  exact WAL.bytes_opened_appendAll _ _

/-- **What client calls can write to the log.**  If every record they hand to
`WAL::append` has at most 1 MiB, the log can be read back; and it cannot if one
has more, as long as the lengths fit their field of 32 bits. -/
theorem logReadable_iff (e : LSMTreeEngine) (uninit : Uninit) (calls : List ClientWrite) :
    ((∀ r ∈ e.onEmptyLog.logRecords uninit calls, r.serialize.length ≤ WAL.maxRecordLength) →
      LogReadable (e.onEmptyLog.callWrites uninit calls).wal.bytes) ∧
    ((∀ r ∈ e.onEmptyLog.logRecords uninit calls, r.serialize.length < 2 ^ 32) →
      LogReadable (e.onEmptyLog.callWrites uninit calls).wal.bytes →
      ∀ r ∈ e.onEmptyLog.logRecords uninit calls, r.serialize.length ≤ WAL.maxRecordLength) := by
  rw [bytes_callWrites]
  constructor
  · intro hshort
    refine logReadable_of_replays ?_
    exact fun walFile now => (WAL.exists_replayFrom_iff walFile now).1 hshort
  · intro hlen hreadable
    exact (WAL.exists_replayFrom_iff "wal.log" fun _ => 0).2 hlen (hreadable.replays _ _)

/-- An open engine without data. -/
def blankEngine : LSMTreeEngine := { create "d" SortedMap.empty none 10 with isOpen := true }

/-- Key `("a", "")` and an entry of 5 KB, which the memory table refuses. -/
def refusedPut : ClientWrite :=
  .put ⟨[97], []⟩ ⟨List.replicate 5000 0, 1, 0, false⟩

/-- A refused put of 5 KB does no harm. -/
theorem logReadable_refusedPut :
    LogReadable (blankEngine.onEmptyLog.callWrites ⟨0, 0, 0, 0, 0⟩ [refusedPut]).wal.bytes := by
  refine (logReadable_iff blankEngine _ [refusedPut]).1 ?_
  intro r hr
  obtain rfl := List.mem_singleton.mp hr
  rw [WALEntry.length_serialize]
  simp only [putRecord, List.length_replicate, List.length_cons, List.length_nil,
    WAL.maxRecordLength]
  omega

/-- A put with a value of 1 MiB is refused, and the log is unreadable after it. -/
theorem unreadable_of_put {e : LSMTreeEngine} (hopen : e.isOpen = true) (uninit : Uninit)
    {key : MultiLevelKey} {entry : DataEntry} {n : ℕ} (hn : entry.value.length = n)
    (hlong : WAL.maxRecordLength ≤ n)
    (hword : key.primaryKey.length + key.secondaryKey.length + n < 2 ^ 31) :
    Result.isOk (e.onEmptyLog.callWrite uninit (.put key entry)).1 = false ∧
      ¬ LogReadable (e.onEmptyLog.callWrites uninit [.put key entry]).wal.bytes := by
  constructor
  · rw [callWrite, put_of_isOpen (e := e.onEmptyLog) hopen rfl]
    refine (MemTable.put_of_not_accepted ?_).1
    rintro ⟨-, hvalue⟩
    rw [hn, Config.maxValueSize] at hvalue
    rw [WAL.maxRecordLength] at hlong
    omega
  · intro hreadable
    have hrecords : e.onEmptyLog.logRecords uninit [.put key entry] = [putRecord key entry] := by
      rw [logRecords, if_pos (show e.onEmptyLog.isOpen = true from hopen)]
      rfl
    rw [bytes_callWrites, hrecords] at hreadable
    have hlen : (putRecord key entry).serialize.length
        = 11 + key.primaryKey.length + key.secondaryKey.length + n := by
      rw [WALEntry.length_serialize, ← hn]
      rfl
    have hle := (WAL.exists_replayFrom_iff "wal.log" fun _ => 0).2
      (by simp only [List.mem_singleton, forall_eq, hlen]; omega)
      (hreadable.replays _ _) _ (List.mem_singleton_self _)
    rw [hlen] at hle
    omega

/-- Key `("a", "")` and an entry of 1 MiB, which the memory table refuses as well. -/
def fatalPut : ClientWrite :=
  .put ⟨[97], []⟩ ⟨List.replicate (1024 * 1024) 0, 1, 0, false⟩

/-- A refused put of 1 MiB makes the log unreadable. -/
theorem not_logReadable_fatalPut :
    Result.isOk (blankEngine.onEmptyLog.callWrite ⟨0, 0, 0, 0, 0⟩ fatalPut).1 = false ∧
      ¬ LogReadable (blankEngine.onEmptyLog.callWrites ⟨0, 0, 0, 0, 0⟩ [fatalPut]).wal.bytes := by
  rw [fatalPut]
  exact unreadable_of_put rfl ⟨0, 0, 0, 0, 0⟩ List.length_replicate le_rfl (by decide)

end LSMTreeEngine

end QcDatabase
