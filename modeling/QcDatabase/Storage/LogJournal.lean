/-
# The log object as a journal (`src/storage/wal.cpp`)

Every call of `WAL`, `truncate`, `file_size` and `current_sequence_number`
included, in any order, on a file of whole records.  What the log is for is the
general `Journal`: a list of records, appended to and read from a number on.
Since one stream serves all of it and a replay runs that stream into the end of
the file, the journal stalls:

* after a replay `append` returns `OK` and keeps nothing, and a further replay
  returns nothing, until the log is opened again;
* an `open` that may only write the file empties it and fails;
* `truncate` of an open log calls `replay_from` from its own section and never
  comes back (`blocks_truncate`), so no call of a run follows it.

`Represents` ties the object to the journal, `Represents.step` keeps it and gives
each answer, and `answers_eq_journal` is the refinement for whole runs.
-/
import QcDatabase.Lib.Journal
import QcDatabase.Storage.SequenceNumbers
import QcDatabase.Storage.StorageDiscipline
import QcDatabase.Storage.WalSessions

open FileStream LittleEndian SharedMutex

namespace QcDatabase

/-- What the log keeps of an entry: type, sequence number, key and value. -/
abbrev LogRecord := WALEntryType × UInt64 × MultiLevelKey × Bytes

namespace WALEntry

/-- The bytes of a record in the file. -/
def recordWidth (r : LogRecord) : ℕ :=
  19 + r.2.2.1.primaryKey.length + r.2.2.1.secondaryKey.length + r.2.2.2.length

theorem length_frame_eq_recordWidth (e : WALEntry) : e.frame.length = recordWidth e.summary := by
  have hnumber := length_u64Bytes e.sequenceNumber
  rw [length_frame, serialize_eq, recordWidth, summary]
  simp only [List.length_cons, List.length_append]
  omega

theorem length_frames (es : List WALEntry) :
    (es.flatMap frame).length = ((es.map summary).map recordWidth).sum := by
  induction es with
  | nil => rfl
  | cons e es ih =>
      rw [List.flatMap_cons, List.length_append, ih, length_frame_eq_recordWidth]
      rfl

/-- Decoding an entry leaves its record. -/
theorem Loggable.decoded {e : WALEntry} (he : e.Loggable) (now : Timestamp) :
    (e.decoded now).Loggable :=
  ⟨he.nulFree, he.length_le⟩

end WALEntry

/-- What an access means for a journal. -/
def LogAccess.toJournal : LogAccess → Journal.Opening
  | .readWrite => .granted
  | .writeOnly => .wiped
  | .refused => .refused
  | .threw _ => .refused

namespace WAL

theorem loggable_replayed {es : List WALEntry} (hes : ∀ e ∈ es, e.Loggable) (n : UInt64)
    (now : ℕ → Timestamp) (i : ℕ) : ∀ e ∈ replayed n now i es, e.Loggable := by
  induction es generalizing i with
  | nil => simp [replayed]
  | cons e es ih =>
      rw [List.forall_mem_cons] at hes
      rw [replayed]
      split_ifs
      · rw [List.forall_mem_cons]
        exact ⟨hes.1.decoded _, ih hes.2 _⟩
      · exact ih hes.2 _

/-- The records of a replay from `n` on. -/
theorem map_summary_replayed (n : UInt64) (now : ℕ → Timestamp) (i : ℕ) (es : List WALEntry) :
    (replayed n now i es).map WALEntry.summary
      = (es.map WALEntry.summary).filter fun r => decide (n ≤ r.2.1) := by
  induction es generalizing i with
  | nil => rfl
  | cons e es ih =>
      rw [replayed, List.map_cons, List.filter_cons]
      have hnumber : e.summary.2.1 = e.sequenceNumber := rfl
      by_cases hn : n ≤ e.sequenceNumber
      · rw [if_pos hn, if_pos (by simpa [hnumber] using hn), List.map_cons, ih]
        rfl
      · rw [if_neg hn, if_neg (by simpa [hnumber] using hn), ih]

/-! ## Calls and answers -/

/-- A call on the log object. -/
inductive LogCall where
  | «open» (access : LogAccess)
  | append (e : WALEntry)
  | sync
  | replayFrom (sequenceNumber : UInt64) (now : ℕ → Timestamp)
  | truncate (sequenceNumber : UInt64) (now : ℕ → Timestamp) (writable accessible : Bool)
  | fileSize
  | currentSequenceNumber
  | close

namespace LogCall

/-- Every entry that is passed to `append` fits the log format. -/
def Loggable : LogCall → Prop
  | .append e => e.Loggable
  | _ => True

/-- The call on the journal. -/
def toJournal : LogCall → Journal.Call LogRecord
  | .open access => .open access.toJournal
  | .append e => .append e.summary
  | .sync => .sync
  | .replayFrom n _ => .read fun r => decide (n ≤ r.2.1)
  | .truncate _ _ _ _ => .shorten
  | .fileSize => .size
  | .currentSequenceNumber => .count
  | .close => .close

end LogCall

/-- What its thread does to the mutexes in a call. -/
def callEvents (w : WAL) : LogCall → List (Event StorageMutex)
  | .open access => (w.openTraced access).events
  | .append e => (w.appendTraced e).events
  | .sync => w.syncTraced.events
  | .replayFrom n now => (w.replayFromTraced n now).events
  | .truncate n now writable accessible => (w.truncateTraced n now writable accessible).events
  | .fileSize => w.fileSizeTraced.events
  | .currentSequenceNumber => []
  | .close => w.closeTraced.events

/-- The call never comes back: its thread locks a mutex that it owns. -/
def blocks (w : WAL) (call : LogCall) : Bool :=
  !decide (Disciplined noStorageMutex (w.callEvents call))

/-- The object after a call that comes back. -/
def callLog (w : WAL) : LogCall → WAL
  | .open access => (w.open access).2
  | .append e => (w.append e).2
  | .sync => w.sync.2
  | .replayFrom n now => (w.replayFrom n now).2
  | .truncate n now writable accessible => (w.truncate n now writable accessible).2
  | .fileSize => w
  | .currentSequenceNumber => w
  | .close => w.close.2

/-- A result, as the journal answers it. -/
def answerOf {α : Type} (value : α → Journal.Answer LogRecord) :
    Result α → Journal.Answer LogRecord
  | .ok a => value a
  | .error _ => .refused

/-- What a call that comes back answers; of returned entries, their records. -/
def reply (w : WAL) : LogCall → Journal.Answer LogRecord
  | .open access => answerOf (fun _ => .done) (w.open access).1
  | .append e => answerOf (fun _ => .done) (w.append e).1
  | .sync => answerOf (fun _ => .done) w.sync.1
  | .replayFrom n now => answerOf (fun es => .entries (es.map WALEntry.summary)) (w.replayFrom n now).1
  | .truncate n now writable accessible =>
      answerOf (fun _ => .done) (w.truncate n now writable accessible).1
  | .fileSize => .number w.fileSize
  | .currentSequenceNumber => .number w.sequenceNumber.toNat
  | .close => answerOf (fun _ => .done) w.close.1

/-- The answers of a sequence of calls, in order, up to the first that never comes back. -/
def answers (w : WAL) : List LogCall → List (Journal.Answer LogRecord)
  | [] => []
  | call :: calls => if w.blocks call then [] else w.reply call :: (w.callLog call).answers calls

/-- The record of an `append` that returns `OK`. -/
def acceptedBy (w : WAL) : LogCall → List LogRecord
  | .append e => if Result.isOk (w.append e).1 then [e.summary] else []
  | _ => []

/-- The records of the appends of a run that returned `OK`, in order. -/
def acceptedIn (w : WAL) : List LogCall → List LogRecord
  | [] => []
  | call :: calls =>
      if w.blocks call then [] else w.acceptedBy call ++ (w.callLog call).acceptedIn calls

/-- **`truncate` of an open log never comes back**; every other call does. -/
theorem blocks_truncate (w : WAL) (n : UInt64) (now : ℕ → Timestamp) (writable accessible : Bool) :
    w.blocks (.truncate n now writable accessible) = w.isOpen := by
  have hiff : Disciplined noStorageMutex (w.callEvents (.truncate n now writable accessible))
      ↔ w.isOpen = false := disciplined_truncateTraced_iff
  rw [Bool.eq_iff_iff, blocks, Bool.not_eq_true', decide_eq_false_iff_not, hiff]
  rw [Bool.not_eq_false]

/-- A section that calls nothing comes back. -/
theorem blocks_of_section {α : Type} {w : WAL} {call : LogCall} {a : α}
    (h : w.callEvents call = (Traced.guarded StorageMutex.wal .exclusive (pure a)).events) :
    w.blocks call = false := by
  have hdisciplined : Disciplined noStorageMutex (w.callEvents call) := by
    rw [h]
    exact (Traced.balanced_section rfl _ _).disciplined
  rw [blocks, decide_eq_true hdisciplined]
  rfl

/-! ## The object and the journal -/

/-- The object `w` stands for the journal `j`. -/
structure Represents (w : WAL) (j : Journal LogRecord) : Prop where
  isOpen_eq : w.isOpen = j.isOpen
  number_eq : w.sequenceNumber = j.accepted
  frames : ∃ es : List WALEntry, (∀ e ∈ es, e.Loggable) ∧ w.bytes = es.flatMap WALEntry.frame ∧
    es.map WALEntry.summary = j.entries
  atEnd : j.isOpen = true → j.stalled = false → w.AtEnd
  failed : j.isOpen = true → j.stalled = true → w.file.fail = true
  detached : j.isOpen = false → w.file.isOpen = false

/-- A new object on a file of whole records. -/
theorem represents_create (walFile : String) {es : List WALEntry} (hes : ∀ e ∈ es, e.Loggable) :
    Represents (create walFile (some (es.flatMap WALEntry.frame)))
      (Journal.closed (es.map WALEntry.summary)) where
  isOpen_eq := rfl
  number_eq := rfl
  frames := ⟨es, hes, rfl, rfl⟩
  atEnd := by intro h; cases h
  failed := by intro h; cases h
  detached := fun _ => rfl

namespace Represents

variable {w : WAL} {j : Journal LogRecord}

theorem step_open (h : Represents w j) (access : LogAccess) :
    w.reply (.open access) = j.reply WALEntry.recordWidth (.open access.toJournal) ∧
      Represents (w.open access).2 (j.step (.open access.toJournal)) := by
  rw [reply, Journal.reply]
  cases ho : j.isOpen with
  | true =>
      have hw : w.isOpen = true := by rw [h.isOpen_eq, ho]
      rw [WAL.open.eq_def, if_pos hw, Journal.step.eq_def]
      dsimp only
      rw [if_pos ho]
      exact ⟨rfl, h⟩
  | false =>
      have hw : w.isOpen = false := by rw [h.isOpen_eq, ho]
      have hdet := h.detached ho
      cases access with
      | readWrite =>
          rw [open_of_detached hw hdet, LogAccess.toJournal, Journal.step_open_granted ho]
          exact ⟨rfl, {
            isOpen_eq := rfl
            number_eq := h.number_eq
            frames := h.frames
            atEnd := fun _ _ => ⟨rfl, ⟨rfl, rfl⟩, rfl⟩
            failed := fun _ hs => by cases hs
            detached := fun hc => by cases hc }⟩
      | writeOnly =>
          rw [open_of_writeOnly hw hdet, LogAccess.toJournal, Journal.step_open_wiped ho]
          exact ⟨rfl, {
            isOpen_eq := h.isOpen_eq
            number_eq := h.number_eq
            frames := ⟨[], by simp, rfl, rfl⟩
            atEnd := fun h' => by simp [ho] at h'
            failed := fun h' => by simp [ho] at h'
            detached := fun _ => rfl }⟩
      | refused =>
          rw [open_of_refused hw hdet, LogAccess.toJournal, Journal.step_open_refused]
          exact ⟨rfl, { h with
            atEnd := fun h' => by simp [ho] at h'
            failed := fun h' => by simp [ho] at h'
            detached := fun _ => hdet }⟩
      | threw what =>
          rw [open_of_threw hw, LogAccess.toJournal, Journal.step_open_refused]
          exact ⟨rfl, h⟩

theorem step_append (h : Represents w j) {e : WALEntry} (he : e.Loggable) :
    w.reply (.append e) = j.reply WALEntry.recordWidth (.append e.summary) ∧
      Represents (w.append e).2 (j.step (.append e.summary)) := by
  rw [reply, Journal.reply, Journal.step]
  cases ho : j.isOpen with
  | false =>
      have hw : w.isOpen = false := by rw [h.isOpen_eq, ho]
      rw [append, if_pos (by simp [hw])]
      exact ⟨rfl, h⟩
  | true =>
      obtain ⟨es, hes, hbytes, hsummaries⟩ := h.frames
      cases hs : j.stalled with
      | true =>
          -- nothing goes through the failed stream
          have hfail := h.failed ho hs
          rw [append_of_fail (h.isOpen_eq.trans ho) hfail e]
          exact ⟨rfl, {
            isOpen_eq := h.isOpen_eq.trans ho
            number_eq := by show w.sequenceNumber + 1 = j.accepted + 1; rw [h.number_eq]
            frames := ⟨es, hes, hbytes, hsummaries⟩
            atEnd := fun _ h' => by cases h'
            failed := fun _ _ => hfail
            detached := fun h' => by cases h' }⟩
      | false =>
          have hend := h.atEnd ho hs
          have hend' := hend.append e
          rw [append_of_atEnd hend e] at *
          refine ⟨rfl, {
            isOpen_eq := h.isOpen_eq.trans ho
            number_eq := by show w.sequenceNumber + 1 = j.accepted + 1; rw [h.number_eq]
            frames := ⟨es ++ [e], ?_, ?_, ?_⟩
            atEnd := fun _ _ => hend'
            failed := fun _ h' => by cases h'
            detached := fun h' => by cases h' }⟩
          · intro e' he'
            rcases List.mem_append.mp he' with he' | he'
            · exact hes e' he'
            · rw [List.mem_singleton.mp he']
              exact he
          · show w.bytes ++ e.frame = _
            rw [hbytes, List.flatMap_append, List.flatMap_singleton]
          · rw [List.map_append, hsummaries]
            rfl

/-- What a replay returns, and the failed stream it leaves. -/
theorem replayFrom_eq (h : Represents w j) (ho : j.isOpen = true) (n : UInt64)
    (now : ℕ → Timestamp) :
    ∃ (out : List WALEntry) (f : FileStream), w.replayFrom n now = (.ok out, { w with file := f }) ∧
      f.fail = true ∧ (∀ e ∈ out, e.Loggable) ∧
      out.map WALEntry.summary = j.visible.filter fun r => decide (n ≤ r.2.1) := by
  obtain ⟨es, hes, hbytes, hsummaries⟩ := h.frames
  have hw : w.isOpen = true := h.isOpen_eq.trans ho
  cases hs : j.stalled with
  | true =>
      have hfail := h.failed ho hs
      refine ⟨[], _, replayFrom_of_fail hw hfail n now, hfail, by simp, ?_⟩
      simp [Journal.visible, hs]
  | false =>
      have hend := h.atEnd ho hs
      obtain ⟨f, hrun, -, hfail⟩ := replayFrom_of_frames hw hend.ready hes [] (by simp)
        (by simpa using hbytes) n now
      refine ⟨_, f, hrun, hfail, loggable_replayed hes n now 0, ?_⟩
      rw [map_summary_replayed, hsummaries, Journal.visible, hs]
      rfl

theorem step_replayFrom (h : Represents w j) (n : UInt64) (now : ℕ → Timestamp) :
    w.reply (.replayFrom n now)
        = j.reply WALEntry.recordWidth (.read fun r => decide (n ≤ r.2.1)) ∧
      Represents (w.replayFrom n now).2 (j.step (.read fun r => decide (n ≤ r.2.1))) := by
  rw [reply, Journal.reply, Journal.step]
  cases ho : j.isOpen with
  | false =>
      have hw : w.isOpen = false := by rw [h.isOpen_eq, ho]
      rw [replayFrom, if_pos (by simp [hw])]
      exact ⟨rfl, h⟩
  | true =>
      obtain ⟨out, f, hrun, hfail, -, hout⟩ := h.replayFrom_eq ho n now
      rw [hrun]
      refine ⟨congrArg Journal.Answer.entries hout, ?_⟩
      exact {
        isOpen_eq := h.isOpen_eq.trans ho
        number_eq := h.number_eq
        frames := h.frames
        atEnd := fun _ h' => by cases h'
        failed := fun _ _ => hfail
        detached := fun h' => by cases h' }

/-- A closed stream is detached, whether it was open or not. -/
theorem isOpen_close (f : FileStream) : f.close.isOpen = false := by
  unfold FileStream.close
  split_ifs with hf
  · rfl
  · simpa using hf

theorem step_truncate (h : Represents w j) (hclosed : j.isOpen = false) (n : UInt64)
    (now : ℕ → Timestamp) (writable accessible : Bool) :
    w.reply (.truncate n now writable accessible) = .refused ∧
      Represents (w.truncate n now writable accessible).2 j := by
  have hw : w.isOpen = false := h.isOpen_eq.trans hclosed
  rw [reply, truncate, if_pos (by simp [hw])]
  exact ⟨rfl, h⟩

theorem step_close (h : Represents w j) :
    w.reply .close = j.reply WALEntry.recordWidth .close ∧
      Represents w.close.2 (j.step .close) := by
  rw [reply, Journal.reply, Journal.step]
  cases ho : j.isOpen with
  | false =>
      have hw : w.isOpen = false := by rw [h.isOpen_eq, ho]
      rw [WAL.close, if_pos (by simp [hw])]
      have hsame : ({ j with isOpen := false } : Journal LogRecord) = j := by rw [← ho]
      rw [hsame]
      exact ⟨rfl, h⟩
  | true =>
      have hw : w.isOpen = true := by rw [h.isOpen_eq, ho]
      have hdet : (if w.file.isOpen then w.file.flush.close else w.file).isOpen = false := by
        split_ifs with hf
        · exact isOpen_close _
        · simpa using hf
      rw [WAL.close, if_neg (by simp [hw])]
      refine ⟨rfl, ?_⟩
      exact {
        isOpen_eq := rfl
        number_eq := h.number_eq
        frames := h.frames
        atEnd := fun h' => by cases h'
        failed := fun h' => by cases h'
        detached := fun _ => hdet }

/-- The size is that of the records, and 0 over a failed or detached stream. -/
theorem fileSize_eq (h : Represents w j) :
    w.reply .fileSize = j.reply WALEntry.recordWidth .size := by
  obtain ⟨es, -, hbytes, hsummaries⟩ := h.frames
  rw [reply, Journal.reply, fileSize, h.isOpen_eq]
  cases ho : j.isOpen with
  | false => rfl
  | true =>
      cases hs : j.stalled with
      | true =>
          rw [h.failed ho hs]
          simp
      | false =>
          have hend := h.atEnd ho hs
          obtain ⟨hattached, hgood⟩ := hend.ready
          have hfail : w.file.fail = false := by
            by_contra hf
            rw [good_eq_false_of_fail (by simpa using hf)] at hgood
            cases hgood
          rw [hattached, hfail, hend.pos_eq, hbytes, WALEntry.length_frames, hsummaries]
          rfl

/-- The calls that never come back are those of the journal. -/
theorem blocks_eq (h : Represents w j) (call : LogCall) : w.blocks call = j.blocks call.toJournal := by
  cases call with
  | truncate n now writable accessible => rw [blocks_truncate, h.isOpen_eq]; rfl
  | «open» access => exact blocks_of_section rfl
  | append e => exact blocks_of_section rfl
  | sync => exact blocks_of_section rfl
  | replayFrom n now => exact blocks_of_section rfl
  | fileSize => exact blocks_of_section rfl
  | currentSequenceNumber => rfl
  | close => exact blocks_of_section rfl

/-- **Step lemma.**  Every call that comes back is answered as the journal answers it, and
leaves an object that stands for the journal afterwards. -/
theorem step (h : Represents w j) {call : LogCall} (hcall : call.Loggable)
    (hback : j.blocks call.toJournal = false) :
    w.reply call = j.reply WALEntry.recordWidth call.toJournal ∧
      Represents (w.callLog call) (j.step call.toJournal) := by
  cases call with
  | «open» access => exact h.step_open access
  | append e => exact h.step_append hcall
  | sync =>
      have hw : w.sync.2 = w := by unfold sync; split_ifs <;> rfl
      refine ⟨?_, ?_⟩
      · show answerOf _ w.sync.1 = j.reply WALEntry.recordWidth .sync
        rw [Journal.reply, sync, h.isOpen_eq]
        cases j.isOpen <;> rfl
      · show Represents w.sync.2 j
        rw [hw]
        exact h
  | replayFrom n now => exact h.step_replayFrom n now
  | truncate n now writable accessible => exact h.step_truncate hback n now writable accessible
  | fileSize => exact ⟨h.fileSize_eq, h⟩
  | currentSequenceNumber =>
      refine ⟨?_, h⟩
      show Journal.Answer.number w.sequenceNumber.toNat = .number j.accepted.toNat
      rw [h.number_eq]
  | close => exact h.step_close

/-- **Run lemma.** -/
theorem answers_eq (h : Represents w j) {calls : List LogCall}
    (hcalls : ∀ call ∈ calls, call.Loggable) :
    w.answers calls = j.answers WALEntry.recordWidth (calls.map LogCall.toJournal) := by
  induction calls generalizing w j with
  | nil => rfl
  | cons call calls ih =>
      rw [List.forall_mem_cons] at hcalls
      rw [answers, List.map_cons, Journal.answers, h.blocks_eq]
      cases hblocks : j.blocks call.toJournal with
      | true => rfl
      | false =>
          obtain ⟨hreply, hnext⟩ := h.step hcalls.1 hblocks
          rw [hreply, ih hnext hcalls.2]

/-- `append` returns `OK` where the journal accepts. -/
theorem acceptedBy_eq (h : Represents w j) (call : LogCall) :
    w.acceptedBy call = j.acceptedBy call.toJournal := by
  cases call with
  | append e =>
      have hok : Result.isOk (w.append e).1 = j.isOpen := by
        rw [append, h.isOpen_eq]
        cases j.isOpen <;> rfl
      rw [acceptedBy, hok]
      rfl
  | _ => rfl

theorem acceptedIn_eq (h : Represents w j) {calls : List LogCall}
    (hcalls : ∀ call ∈ calls, call.Loggable) :
    w.acceptedIn calls = j.acceptedIn (calls.map LogCall.toJournal) := by
  induction calls generalizing w j with
  | nil => rfl
  | cons call calls ih =>
      rw [List.forall_mem_cons] at hcalls
      rw [acceptedIn, List.map_cons, Journal.acceptedIn, h.blocks_eq, h.acceptedBy_eq]
      cases hblocks : j.blocks call.toJournal with
      | true => rfl
      | false => rw [ih (h.step hcalls.1 hblocks).2 hcalls.2]

/-- After a run whose calls all come back the object stands for the journal after it. -/
theorem run (h : Represents w j) {calls : List LogCall} (hcalls : ∀ call ∈ calls, call.Loggable)
    (hback : (w.answers calls).length = calls.length) :
    Represents (calls.foldl callLog w) (j.run (calls.map LogCall.toJournal)) := by
  induction calls generalizing w j with
  | nil => exact h
  | cons call calls ih =>
      rw [List.forall_mem_cons] at hcalls
      rw [answers, h.blocks_eq] at hback
      cases hblocks : j.blocks call.toJournal with
      | true => simp [hblocks] at hback
      | false =>
          simp only [hblocks, Bool.false_eq_true, ite_false, List.length_cons,
            Nat.add_right_cancel_iff] at hback
          exact ih (h.step hcalls.1 hblocks).2 hcalls.2 hback

end Represents

/-! ## Runs of the log object -/

section Runs

variable (walFile : String) {es : List WALEntry} (hes : ∀ e ∈ es, e.Loggable)
  {calls : List LogCall} (hcalls : ∀ call ∈ calls, call.Loggable)

include hes hcalls

/-- **The log object is the journal.**  On a file of whole records every sequence of calls is
answered, call for call, as the journal that stalls answers it, and stops where that one
stops. -/
theorem answers_eq_journal :
    (create walFile (some (es.flatMap WALEntry.frame))).answers calls
      = (Journal.closed (es.map WALEntry.summary)).answers WALEntry.recordWidth
          (calls.map LogCall.toJournal) :=
  (represents_create walFile hes).answers_eq hcalls

/-- **No record is invented, doubled or moved.**  Whatever the calls, the entries a replay
returns are, in order, some of those the file held and of those `append` answered `OK` for. -/
theorem replayed_sublist {records : List LogRecord}
    (hmem : Journal.Answer.entries records
      ∈ (create walFile (some (es.flatMap WALEntry.frame))).answers calls) :
    records.Sublist (es.map WALEntry.summary
      ++ (create walFile (some (es.flatMap WALEntry.frame))).acceptedIn calls) := by
  have h := represents_create walFile hes
  rw [h.answers_eq hcalls] at hmem
  rw [h.acceptedIn_eq hcalls]
  exact Journal.sublist_of_mem_answers WALEntry.recordWidth _ _ hmem

/-- **What a run of calls leaves to be read.**  After calls that all come back, a replay of an
open log returns nothing if its session has replayed before; else it returns the records of
the file and behind them those that were appended before a replay of their session, as far as
no later `open` has wiped them. -/
theorem replayFrom_after_run
    (hback : ((create walFile (some (es.flatMap WALEntry.frame))).answers calls).length
      = calls.length)
    (hopen : (calls.foldl callLog (create walFile (some (es.flatMap WALEntry.frame)))).isOpen = true)
    (n : UInt64) (now : ℕ → Timestamp) :
    ∃ out : List WALEntry,
      ((calls.foldl callLog (create walFile (some (es.flatMap WALEntry.frame)))).replayFrom n now).1
          = .ok out ∧
        out.map WALEntry.summary
          = if ((Journal.closed (es.map WALEntry.summary)).run (calls.map LogCall.toJournal)).stalled
            then []
            else ((if (Journal.closed (es.map WALEntry.summary)).spares (calls.map LogCall.toJournal)
                then es.map WALEntry.summary else [])
              ++ (Journal.closed (es.map WALEntry.summary)).keptIn (calls.map LogCall.toJournal)).filter
                fun r => decide (n ≤ r.2.1) := by
  have h := (represents_create walFile hes).run hcalls hback
  obtain ⟨out, f, hrun, -, -, hout⟩ := h.replayFrom_eq (h.isOpen_eq.symm.trans hopen) n now
  refine ⟨out, by rw [hrun], ?_⟩
  rw [hout, Journal.visible, Journal.run_entries]
  split_ifs <;> rfl

end Runs

/-- Two sessions: the first appends, replays and appends once more, the second appends; and
in between the closed log is asked to shorten itself. -/
def sampleCalls : List LogCall :=
  [.open .readWrite, .append sampleEntry, .replayFrom 0 fun _ => 0, .append sampleEntry, .close,
    .truncate 0 (fun _ => 0) true true, .open .readWrite, .append sampleEntry, .fileSize]

theorem sampleCalls_loggable : ∀ call ∈ sampleCalls, call.Loggable := by
  simp [sampleCalls, LogCall.Loggable, sampleEntry_loggable]

/-- The sessions on a file with one record, and a `truncate` of the log that they leave open. -/
theorem answers_eq_journal_sampleCalls :
    (create "wal.log" (some ([sampleEntry].flatMap WALEntry.frame))).answers
        (sampleCalls ++ [LogCall.truncate 0 (fun _ => 0) true true, .sync])
      = (Journal.closed ([sampleEntry].map WALEntry.summary)).answers WALEntry.recordWidth
          ((sampleCalls ++ [LogCall.truncate 0 (fun _ => 0) true true, .sync]).map LogCall.toJournal) :=
  answers_eq_journal "wal.log" (by simp [sampleEntry_loggable])
    (by simp [sampleCalls, LogCall.Loggable, sampleEntry_loggable])

/-- The replay returned two records. -/
theorem replayed_sublist_sampleCalls :
    [sampleEntry.summary, sampleEntry.summary].Sublist ([sampleEntry].map WALEntry.summary
      ++ (create "wal.log" (some ([sampleEntry].flatMap WALEntry.frame))).acceptedIn sampleCalls) :=
  replayed_sublist "wal.log" (by simp [sampleEntry_loggable]) sampleCalls_loggable (by decide +kernel)

/-- The append behind the replay is lost: three of four records are left. -/
theorem replayFrom_after_sampleCalls :
    ∃ out : List WALEntry,
      ((sampleCalls.foldl callLog (create "wal.log" (some ([sampleEntry].flatMap
        WALEntry.frame)))).replayFrom 0 fun _ => 0).1 = .ok out ∧
        out.map WALEntry.summary = [sampleEntry.summary, sampleEntry.summary, sampleEntry.summary] :=
  have hes : ∀ e ∈ [sampleEntry], e.Loggable := by simp [sampleEntry_loggable]
  replayFrom_after_run "wal.log" hes sampleCalls_loggable (by decide +kernel) (by decide +kernel) 0
    fun _ => 0

end WAL

end QcDatabase
