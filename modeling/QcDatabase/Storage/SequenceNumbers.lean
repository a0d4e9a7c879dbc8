/-
# Sequence numbers

`WAL::append` counts the records, the engine puts a number into each of them, and
`replay_from` compares that number with its argument.  The engine always puts 0
(`sequenceNumber_of_mem_logged`), so the number of a record says nothing about its
place in the log.

`HoldsFrom` says that a replay from `n` returns the records from the `n`-th on and
that a truncation leaves these.  With records that are all numbered 0 this is so
for `n = 0`, if all records can be read, and for the `n` that leaves no record
(`holdsFrom_iff`).
-/
import QcDatabase.Storage.LogLimits
import QcDatabase.Storage.TornLog

open LittleEndian FileStream

namespace QcDatabase

/-! ## Replays and truncations from a number -/

namespace WALEntry

/-- Equal frames hold equal sequence numbers. -/
theorem sequenceNumber_of_frame {e e' : WALEntry} (h : e.frame = e'.frame) :
    e.sequenceNumber = e'.sequenceNumber := by
  rw [frame, frame] at h
  have hbody := List.append_inj_right h (by simp [length_u32Bytes])
  rw [e.serialize_eq, e'.serialize_eq] at hbody
  have hnumber := List.append_inj_left (List.cons.inj hbody).2
    (by rw [length_u64Bytes, length_u64Bytes])
  exact u64Bytes_inj hnumber

/-- The bytes are frames that can be read, with numbers below `n`, and less than a header. -/
def FramesBelow (n : UInt64) (bytes : Bytes) : Prop :=
  ∃ (es : List WALEntry) (tail : Bytes), (∀ e ∈ es, e.Loggable ∧ e.sequenceNumber < n) ∧
    tail.length < 8 ∧ bytes = es.flatMap frame ++ tail

/-- Records of an allowed length have the frames of loggable entries with the same numbers. -/
theorem exists_loggable_below {n : UInt64} {records : List WALEntry}
    (hbelow : ∀ r ∈ records, r.sequenceNumber < n)
    (hlen : ∀ r ∈ records, r.serialize.length ≤ WAL.maxRecordLength) :
    ∃ es : List WALEntry, (∀ e ∈ es, e.Loggable ∧ e.sequenceNumber < n) ∧
      records.flatMap frame = es.flatMap frame := by
  induction records with
  | nil => exact ⟨[], by simp, rfl⟩
  | cons r records ih =>
      rw [List.forall_mem_cons] at hbelow hlen
      obtain ⟨e, he, hframe⟩ := r.exists_loggable hlen.1
      obtain ⟨es, hes, hframes⟩ := ih hbelow.2 hlen.2
      refine ⟨e :: es, List.forall_mem_cons.mpr ⟨⟨he, ?_⟩, hes⟩, ?_⟩
      · rw [sequenceNumber_of_frame hframe]
        exact hbelow.1
      · rw [List.flatMap_cons, List.flatMap_cons, hframe, hframes]

/-- Records with numbers below `n`, none of 4 GiB or more: their frames can be read iff
none has more than 1 MiB. -/
theorem framesBelow_iff {n : UInt64} {records : List WALEntry}
    (hbelow : ∀ r ∈ records, r.sequenceNumber < n)
    (hlen : ∀ r ∈ records, r.serialize.length < 2 ^ 32) :
    FramesBelow n (records.flatMap frame) ↔
      ∀ r ∈ records, r.serialize.length ≤ WAL.maxRecordLength := by
  constructor
  · rintro ⟨es, tail, hes, htail, hbytes⟩
    exact length_le_of_frames (fun e he => (hes e he).1) hlen htail hbytes
  · intro hshort
    obtain ⟨es, hes, hframes⟩ := exists_loggable_below hbelow hshort
    exact ⟨es, [], hes, by decide, by rw [List.append_nil, hframes]⟩

end WALEntry

namespace WAL

/-- A replay from `n` returns the records from the `n`-th on, and a truncation leaves them. -/
def HoldsFrom (w : WAL) (records : List WALEntry) (n : UInt64) : Prop :=
  ∀ now, (∃ out, (w.replayFrom n now).1 = .ok out ∧
      out.map WALEntry.summary = (records.drop n.toNat).map WALEntry.summary) ∧
    (w.truncate n now true true).1 = .ok () ∧
    (w.truncate n now true true).2.bytes = (records.drop n.toNat).flatMap WALEntry.frame

/-- A truncation writes what a replay returned. -/
theorem truncate_of_replayFrom {w : WAL} (hopen : w.isOpen = true) {n : UInt64}
    {now : ℕ → Timestamp} {out : List WALEntry} {w' : WAL}
    (hreplay : w.replayFrom n now = (.ok out, w')) :
    (w.truncate n now true true).1 = .ok () ∧
      (w.truncate n now true true).2.bytes = out.flatMap WALEntry.frame := by
  rw [truncate, if_neg (by simp [hopen]), hreplay]
  dsimp only
  rw [rewrite]
  have hclosed : w'.file.close.isOpen = false := by
    rw [FileStream.close]
    split_ifs with h
    · rfl
    · exact Bool.eq_false_of_not_eq_true h
  simp [FileStream.openFile, hclosed, bytes]

/-- It is the replay that decides. -/
theorem holdsFrom_iff_replayFrom {w : WAL} (hopen : w.isOpen = true) (records : List WALEntry)
    (n : UInt64) :
    w.HoldsFrom records n ↔ ∀ now, ∃ out, (w.replayFrom n now).1 = .ok out ∧
      out.map WALEntry.summary = (records.drop n.toNat).map WALEntry.summary := by
  constructor
  · exact fun h now => (h now).1
  · intro h now
    obtain ⟨out, hout, hsummaries⟩ := h now
    refine ⟨⟨out, hout, hsummaries⟩, ?_⟩
    obtain ⟨hok, hbytes⟩ := truncate_of_replayFrom hopen
      (show w.replayFrom n now = (.ok out, (w.replayFrom n now).2) from Prod.ext hout rfl)
    exact ⟨hok, hbytes.trans (WALEntry.frames_of_summaries hsummaries)⟩

section Numbers

variable {w : WAL} {records : List WALEntry} {n : UInt64}

/-- From 0 a replay returns all records iff each can be read. -/
theorem holdsFrom_zero_iff (hend : w.AtEnd) (hbytes : w.bytes = records.flatMap WALEntry.frame) :
    w.HoldsFrom records 0 ↔ ∀ r ∈ records, r.Loggable := by
  rw [holdsFrom_iff_replayFrom hend.isOpen]
  constructor
  · intro h r hr
    obtain ⟨out, hout, hsummaries⟩ := h fun _ => 0
    obtain ⟨es, tail, hes, -, -, rfl⟩ := exists_frames_of_replayFrom hend hout
    -- what was returned has the key and the length of the record
    have hmem : r.summary ∈ ((es.filter fun e => 0 ≤ e.sequenceNumber).map WALEntry.summary) := by
      rw [hsummaries]
      exact List.mem_map_of_mem hr
    obtain ⟨e, he, hsame⟩ := List.mem_map.mp hmem
    have hloggable := hes e (List.mem_of_mem_filter he)
    have hlength := congrArg List.length (WALEntry.frame_of_summary hsame)
    rw [e.length_frame, r.length_frame] at hlength
    have hkey : e.key = r.key := congrArg (fun summary => summary.2.2.1) hsame
    exact ⟨hkey ▸ hloggable.nulFree, by have := hloggable.length_le; omega⟩
  · intro h now
    obtain ⟨f, hrun, -, -⟩ := replayFrom_of_frames hend.isOpen hend.ready h [] (by decide)
      (by rw [hbytes, List.append_nil]) 0 now
    exact ⟨_, by rw [hrun], map_summary_replayed_zero now 0 records⟩

/-- From a number above 0 nothing comes back that is numbered 0. -/
theorem not_holdsFrom_of_lt (hend : w.AtEnd) (hzero : ∀ r ∈ records, r.sequenceNumber = 0)
    (hn : n ≠ 0) (hlt : n.toNat < records.length) : ¬ w.HoldsFrom records n := by
  intro h
  obtain ⟨⟨out, hout, hsummaries⟩, -⟩ := h fun _ => 0
  obtain ⟨es, -, -, -, -, rfl⟩ := exists_frames_of_replayFrom hend hout
  have hmem : records[n.toNat].summary ∈ (records.drop n.toNat).map WALEntry.summary := by
    rw [List.drop_eq_getElem_cons hlt]
    exact List.mem_cons_self
  rw [← hsummaries] at hmem
  obtain ⟨e, he, hsame⟩ := List.mem_map.mp hmem
  have hnumber : n ≤ e.sequenceNumber := by simpa using (List.mem_filter.mp he).2
  have hsequence : e.sequenceNumber = records[n.toNat].sequenceNumber :=
    congrArg (fun summary => summary.2.1) hsame
  rw [hsequence, hzero _ (List.getElem_mem hlt)] at hnumber
  exact hn (UInt64.le_zero_iff.mp hnumber)

/-- From a number that leaves no record a replay has to return nothing. -/
theorem holdsFrom_iff_framesBelow (hend : w.AtEnd)
    (hbytes : w.bytes = records.flatMap WALEntry.frame) (hle : records.length ≤ n.toNat) :
    w.HoldsFrom records n ↔ WALEntry.FramesBelow n (records.flatMap WALEntry.frame) := by
  rw [holdsFrom_iff_replayFrom hend.isOpen, List.drop_eq_nil_of_le hle]
  constructor
  · intro h
    obtain ⟨out, hout, hsummaries⟩ := h fun _ => 0
    obtain ⟨es, tail, hes, htail, hfile, rfl⟩ := exists_frames_of_replayFrom hend hout
    rw [List.map_nil, List.map_eq_nil_iff, List.filter_eq_nil_iff] at hsummaries
    refine ⟨es, tail, ?_, htail, hbytes.symm.trans hfile⟩
    intro e he
    exact ⟨hes e he, by simpa using hsummaries e he⟩
  · rintro ⟨es, tail, hes, htail, hfile⟩ now
    obtain ⟨f, hrun, -, -⟩ := replayFrom_of_frames hend.isOpen hend.ready
      (fun e he => (hes e he).1) tail htail (hbytes.trans hfile) n now
    refine ⟨_, by rw [hrun], ?_⟩
    rw [replayed_eq_nil fun e he => (hes e he).2]

/-- The numbers tell the records apart: all are asked for and can be read, or none is left. -/
def NumbersAgree (records : List WALEntry) (n : UInt64) : Prop :=
  (n = 0 ∧ ∀ r ∈ records, r.Loggable) ∨
    (n ≠ 0 ∧ n.toNat = records.length ∧ WALEntry.FramesBelow n (records.flatMap WALEntry.frame))

/-- **Records that are all numbered 0.** -/
theorem holdsFrom_iff (hend : w.AtEnd) (hbytes : w.bytes = records.flatMap WALEntry.frame)
    (hzero : ∀ r ∈ records, r.sequenceNumber = 0) (hle : n.toNat ≤ records.length) :
    w.HoldsFrom records n ↔ NumbersAgree records n := by
  by_cases hn : n = 0
  · rw [hn, holdsFrom_zero_iff hend hbytes, NumbersAgree]
    simp
  · rcases Nat.lt_or_eq_of_le hle with hlt | heq
    · refine iff_of_false (not_holdsFrom_of_lt hend hzero hn hlt) ?_
      rintro (⟨h, -⟩ | ⟨-, h, -⟩)
      · exact hn h
      · omega
    · rw [holdsFrom_iff_framesBelow hend hbytes heq.ge, NumbersAgree]
      simp [hn, heq]

/-- Where the lengths of the records fit their field of 32 bits, the length of each decides
whether it can be read. -/
theorem numbersAgree_iff (hzero : ∀ r ∈ records, r.sequenceNumber = 0)
    (hlen : ∀ r ∈ records, r.serialize.length < 2 ^ 32) :
    NumbersAgree records n ↔ (n = 0 ∧ ∀ r ∈ records, r.Loggable) ∨
      (n ≠ 0 ∧ n.toNat = records.length ∧ ∀ r ∈ records, r.serialize.length ≤ maxRecordLength) := by
  by_cases hn : n = 0
  · simp [NumbersAgree, hn]
  · have hbelow : ∀ r ∈ records, r.sequenceNumber < n := by
      intro r hr
      rw [hzero r hr]
      exact UInt64.pos_iff_ne_zero.mpr hn
    rw [NumbersAgree, WALEntry.framesBelow_iff hbelow hlen]

end Numbers

/-- Every append counts. -/
theorem sequenceNumber_appendAll {w : WAL} (hopen : w.isOpen = true) (es : List WALEntry) :
    (w.appendAll es).sequenceNumber = w.sequenceNumber + UInt64.ofNat es.length := by
  induction es generalizing w with
  | nil => simp [appendAll]
  | cons e es ih =>
      have hnext : (w.append e).2.sequenceNumber = w.sequenceNumber + 1 := by
        rw [append, if_neg (by simp [hopen])]
      show ((w.append e).2.appendAll es).sequenceNumber = _
      rw [ih ((isOpen_append w e).trans hopen), hnext, List.length_cons, UInt64.ofNat_add,
        UInt64.add_assoc, UInt64.add_comm 1]
      rfl

end WAL

/-! ## What the calls of the engine log -/

/-- A client call that writes to the log. -/
inductive LoggingCall where
  | put (key : MultiLevelKey) (entry : DataEntry)
  | remove (key : MultiLevelKey) (now : Timestamp)
  | flush (first second : TableWrite)

namespace LSMTreeEngine

/-- The engine after a call. -/
def callLogging (e : LSMTreeEngine) : LoggingCall → LSMTreeEngine
  | .put key entry => (e.put key entry).2
  | .remove key now => (e.remove key now).2
  | .flush first second => (e.flush first second).2

/-- The checkpoint of a flush. -/
def checkpointRecord : WALEntry := ⟨WALEntryType.checkpoint, ⟨[], []⟩, ⟨[], 0, 0, false⟩, 0⟩

/-- A flush that wrote its tables appends a checkpoint. -/
def flushRecords (e : LSMTreeEngine) (first second : TableWrite) : List WALEntry :=
  if e.memtable.size ≠ 0 ∧ Result.isOk (e.flushMemtable first second).1 then [checkpointRecord]
  else []

/-- The records a call hands to `WAL::append`. -/
def logged (e : LSMTreeEngine) : LoggingCall → List WALEntry
  | .put key entry => if e.isOpen then [putRecord key entry] else []
  | .remove key now => if e.isOpen then [removeRecord key now] else []
  | .flush first second => if e.isOpen then e.flushRecords first second else []

/-- The records of a sequence of calls. -/
def allLogged (e : LSMTreeEngine) : List LoggingCall → List WALEntry
  | [] => []
  | call :: calls => e.logged call ++ (e.callLogging call).allLogged calls

/-- Every record the engine writes is numbered 0. -/
theorem sequenceNumber_of_mem_logged {e : LSMTreeEngine} {call : LoggingCall} {r : WALEntry}
    (hr : r ∈ e.logged call) : r.sequenceNumber = 0 := by
  have hone : ∀ (b : Prop) [Decidable b] (record : WALEntry), record.sequenceNumber = 0 →
      r ∈ (if b then [record] else []) → r.sequenceNumber = 0 := by
    intro b _ record hzero hmem
    split_ifs at hmem
    · rw [List.mem_singleton.mp hmem, hzero]
    · exact absurd hmem List.not_mem_nil
  cases call with
  | put key entry => exact hone _ _ rfl hr
  | remove key now => exact hone _ _ rfl hr
  | flush first second =>
      rw [logged] at hr
      split_ifs at hr
      · exact hone _ checkpointRecord rfl hr
      · exact absurd hr List.not_mem_nil

theorem sequenceNumber_of_mem_allLogged {e : LSMTreeEngine} {calls : List LoggingCall}
    {r : WALEntry} (hr : r ∈ e.allLogged calls) : r.sequenceNumber = 0 := by
  induction calls generalizing e with
  | nil => exact absurd hr List.not_mem_nil
  | cons call calls ih =>
      rw [allLogged, List.mem_append] at hr
      rcases hr with hr | hr
      · exact sequenceNumber_of_mem_logged hr
      · exact ih hr

/-- What a flush does to the log. -/
theorem wal_flushMemtable_eq (e : LSMTreeEngine) (first second : TableWrite) :
    (e.flushMemtable first second).2.wal = e.wal.appendAll (e.flushRecords first second) := by
  -- the record is written after the table, and only if the table was
  have hcurrent : ∀ e : LSMTreeEngine, (e.flushCurrent second).2.wal
      = e.wal.appendAll (if Result.isOk (e.flushCurrent second).1 then [checkpointRecord]
        else []) := by
    intro e
    rw [flushCurrent]
    rcases (SSTable.create (e.filenameOf second)).write e.dir e.memtable.getAllData second.outcome
      with ⟨_ | _, t, dir⟩
    · rfl
    · rfl
  by_cases hsize : e.memtable.size = 0
  · rw [flushRecords, if_neg (by simp [hsize]), flushMemtable, if_pos hsize]
    rfl
  · rcases himm : e.immutableMemtable with _ | m
    · have hflush : e.flushMemtable first second = e.flushCurrent second := by
        rw [flushMemtable, if_neg hsize, himm]
      simp only [flushRecords, hflush, ne_eq, hsize, not_false_eq_true, true_and]
      exact hcurrent e
    · rcases hwrite : (SSTable.create (e.filenameOf first)).write e.dir m.getAllData first.outcome
        with ⟨f | _, t, dir⟩
      · have hflush : e.flushMemtable first second = (.error f, { e with dir := dir }) := by
          rw [flushMemtable, if_neg hsize, himm]
          dsimp only
          rw [hwrite]
        rw [flushRecords, hflush, if_neg (by simp [Result.isOk])]
        rfl
      · have hflush : e.flushMemtable first second
            = flushCurrent { e with dir := dir, sstables := e.sstables ++ [t] } second := by
          rw [flushMemtable, if_neg hsize, himm]
          dsimp only
          rw [hwrite]
        simp only [flushRecords, hflush, ne_eq, hsize, not_false_eq_true, true_and]
        exact hcurrent { e with dir := dir, sstables := e.sstables ++ [t] }

/-- **Step lemma.**  A call appends its records. -/
theorem callLogging_wal {e : LSMTreeEngine} (hwal : e.wal.isOpen = true) (call : LoggingCall) :
    (e.callLogging call).wal = e.wal.appendAll (e.logged call) := by
  cases hopen : e.isOpen with
  | false =>
      cases call with
      | put key entry =>
          rw [callLogging, put, if_pos (by simp [hopen]), logged, if_neg (by simp [hopen])]
          rfl
      | remove key now =>
          rw [callLogging, remove, if_pos (by simp [hopen]), logged, if_neg (by simp [hopen])]
          rfl
      | flush first second =>
          rw [callLogging, flush, if_pos (by simp [hopen]), logged, if_neg (by simp [hopen])]
          rfl
  | true =>
      cases call with
      | put key entry =>
          rw [callLogging, put_of_isOpen hopen hwal, logged, if_pos hopen]
          rfl
      | remove key now =>
          rw [callLogging, remove_of_isOpen hopen hwal, logged, if_pos hopen]
          rfl
      | flush first second =>
          have hflush := wal_flushMemtable_eq e first second
          rw [callLogging, flush, if_neg (by simp [hopen]), logged, if_pos hopen]
          rcases hresult : e.flushMemtable first second with ⟨_ | _, e'⟩
          · rw [hresult] at hflush
            exact hflush
          · rw [hresult] at hflush
            dsimp only
            rw [WAL.sync, if_neg]
            · exact hflush
            · rw [hflush, WAL.isOpen_appendAll, hwal]
              exact Bool.false_ne_true

/-- **The log of a sequence of calls.** -/
theorem wal_foldl_callLogging {e : LSMTreeEngine} (hwal : e.wal.isOpen = true)
    (calls : List LoggingCall) :
    (calls.foldl callLogging e).wal = e.wal.appendAll (e.allLogged calls) := by
  induction calls generalizing e with
  | nil => rfl
  | cons call calls ih =>
      have hstep := callLogging_wal hwal call
      rw [List.foldl_cons, allLogged, WAL.appendAll_append, ← hstep]
      apply ih
      rw [hstep, WAL.isOpen_appendAll, hwal]

/-- The log of calls that begin on an empty log. -/
theorem log_foldl_callLogging (e : LSMTreeEngine) (calls : List LoggingCall) :
    (calls.foldl callLogging e.onEmptyLog).wal.AtEnd ∧
      (calls.foldl callLogging e.onEmptyLog).wal.bytes
        = (e.onEmptyLog.allLogged calls).flatMap WALEntry.frame ∧
      (calls.foldl callLogging e.onEmptyLog).wal.sequenceNumber
        = UInt64.ofNat (e.onEmptyLog.allLogged calls).length := by
  have hend := WAL.atEnd_opened (e.dataDir ++ "/wal.log") []
  rw [wal_foldl_callLogging (e := e.onEmptyLog) hend.isOpen]
  refine ⟨hend.appendAll _, WAL.bytes_opened_appendAll _ _, ?_⟩
  exact (WAL.sequenceNumber_appendAll hend.isOpen _).trans (UInt64.zero_add _)

/-- The counter of the log is at most the number of its records. -/
theorem toNat_le_length_allLogged {e : LSMTreeEngine} {calls : List LoggingCall} {n : UInt64}
    (hn : n ≤ (calls.foldl callLogging e.onEmptyLog).wal.sequenceNumber) :
    n.toNat ≤ (e.onEmptyLog.allLogged calls).length := by
  rw [(e.log_foldl_callLogging calls).2.2, UInt64.le_iff_toNat_le, UInt64.toNat_ofNat'] at hn
  exact hn.trans (Nat.mod_le _ _)

/-- **When sequence numbers identify records.**  They do from 0 on, where every record can
be read back, and from a number that leaves none. -/
theorem holdsFrom_current_iff (e : LSMTreeEngine) (calls : List LoggingCall) (n : UInt64)
    (hn : n ≤ (calls.foldl callLogging e.onEmptyLog).wal.sequenceNumber) :
    (calls.foldl callLogging e.onEmptyLog).wal.HoldsFrom (e.onEmptyLog.allLogged calls) n ↔
      WAL.NumbersAgree (e.onEmptyLog.allLogged calls) n := by
  obtain ⟨hend, hbytes, -⟩ := e.log_foldl_callLogging calls
  exact WAL.holdsFrom_iff hend hbytes (fun _ hr => sequenceNumber_of_mem_allLogged hr)
    (toNat_le_length_allLogged hn)

/-- Two puts, of `("a", "")` and `("b", "")`. -/
def twoPuts : List LoggingCall :=
  [.put ⟨[97], []⟩ ⟨[1], 1, 0, false⟩, .put ⟨[98], []⟩ ⟨[2], 1, 0, false⟩]

/-- All of them are returned from 0 on. -/
theorem holdsFrom_zero_twoPuts :
    (twoPuts.foldl callLogging blankEngine.onEmptyLog).wal.HoldsFrom
      (blankEngine.onEmptyLog.allLogged twoPuts) 0 := by
  refine (holdsFrom_current_iff blankEngine twoPuts 0 UInt64.zero_le).mpr (Or.inl ⟨rfl, ?_⟩)
  have hrecords : blankEngine.onEmptyLog.allLogged twoPuts
      = [putRecord ⟨[97], []⟩ ⟨[1], 1, 0, false⟩, putRecord ⟨[98], []⟩ ⟨[2], 1, 0, false⟩] := rfl
  rw [hrecords, List.forall_mem_cons, List.forall_mem_singleton]
  exact ⟨⟨by decide, by decide⟩, ⟨by decide, by decide⟩⟩

/-- A replay from 1 does not return the second, and a truncation by 1 drops it. -/
theorem not_holdsFrom_one_twoPuts :
    1 ≤ (twoPuts.foldl callLogging blankEngine.onEmptyLog).wal.sequenceNumber ∧
      ¬ (twoPuts.foldl callLogging blankEngine.onEmptyLog).wal.HoldsFrom
        (blankEngine.onEmptyLog.allLogged twoPuts) 1 := by
  obtain ⟨hend, -, hcount⟩ := blankEngine.log_foldl_callLogging twoPuts
  have hlength : (blankEngine.onEmptyLog.allLogged twoPuts).length = 2 := rfl
  constructor
  · rw [hcount, hlength]
    decide
  · refine WAL.not_holdsFrom_of_lt hend (fun _ hr => sequenceNumber_of_mem_allLogged hr)
      (by decide) ?_
    rw [hlength]
    decide

end LSMTreeEngine

end QcDatabase
