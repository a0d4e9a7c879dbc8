/-
# A log cut off anywhere

A crash leaves a prefix of the bytes that `WAL::append` wrote.  It consists of
whole frames and of the beginning of one more (`prefix_frames`).  The replay
loop passes over the whole frames and stops well if the rest is too short for a
frame header; a rest that has the header and not the whole record is an error.

So `replay_from(0)` returns the entries that are wholly in the prefix exactly
when fewer than eight bytes of the next frame are (`replaysWholeFrames_iff`).
-/
import QcDatabase.Storage.WalFormat

open LittleEndian FileStream

namespace QcDatabase

namespace WALEntry

/-- The frame holds what the entry is compared on, and nothing else. -/
theorem frame_of_summary {e e' : WALEntry} (h : e.summary = e'.summary) : e.frame = e'.frame := by
  simp only [summary, Prod.mk.injEq] at h
  obtain ⟨htype, hsequence, hkey, hvalue⟩ := h
  have hserialize : e.serialize = e'.serialize := by
    rw [e.serialize_eq, e'.serialize_eq, htype, hsequence, hkey, hvalue]
  rw [frame, frame, hserialize]

theorem frames_of_summaries {es es' : List WALEntry}
    (h : es.map WALEntry.summary = es'.map WALEntry.summary) :
    es.flatMap WALEntry.frame = es'.flatMap WALEntry.frame := by
  induction es generalizing es' with
  | nil =>
      rw [List.map_nil, eq_comm, List.map_eq_nil_iff] at h
      rw [h]
  | cons e es ih =>
      rcases es' with _ | ⟨e', es'⟩
      · exact absurd h (List.cons_ne_nil _ _)
      · rw [List.map_cons, List.map_cons, List.cons.injEq] at h
        rw [List.flatMap_cons, List.flatMap_cons, frame_of_summary h.1, ih h.2]

end WALEntry

namespace WAL

/-! ## Prefixes of frames -/

/-- The entries whose frames lie wholly in the first `n` bytes of the frames of `es`. -/
def wholeFrames : List WALEntry → ℕ → List WALEntry
  | [], _ => []
  | e :: es, n => if e.frame.length ≤ n then e :: wholeFrames es (n - e.frame.length) else []

/-- How many of the first `n` bytes belong to a frame that does not end in them. -/
def tornBytes (es : List WALEntry) (n : ℕ) : ℕ :=
  n - ((wholeFrames es n).flatMap WALEntry.frame).length

theorem mem_of_mem_wholeFrames {es : List WALEntry} {n : ℕ} {e : WALEntry}
    (h : e ∈ wholeFrames es n) : e ∈ es := by
  induction es generalizing n with
  | nil => exact absurd h List.not_mem_nil
  | cons first es ih =>
      rw [wholeFrames] at h
      split_ifs at h with hwhole
      · rcases List.mem_cons.mp h with rfl | h
        · exact List.mem_cons_self
        · exact List.mem_cons_of_mem _ (ih h)
      · exact absurd h List.not_mem_nil

/-- **A prefix of frames** consists of the whole ones and the bytes of a torn one. -/
theorem prefix_frames {es : List WALEntry} {file : Bytes}
    (hcut : file <+: es.flatMap WALEntry.frame) :
    ∃ torn : Bytes, file = (wholeFrames es file.length).flatMap WALEntry.frame ++ torn ∧
      torn.length = tornBytes es file.length := by
  have hsplit : (wholeFrames es file.length).flatMap WALEntry.frame <+: file := by
    induction es generalizing file with
    | nil => exact List.nil_prefix
    | cons e es ih =>
        rw [wholeFrames]
        split_ifs with hwhole
        · -- the first frame is a prefix of the file, and the rest of the file is one of the rest
          have hfirst : e.frame <+: file := by
            apply List.prefix_of_prefix_length_le _ hcut hwhole
            rw [List.flatMap_cons]
            exact List.prefix_append _ _
          obtain ⟨rest, rfl⟩ := hfirst
          rw [List.flatMap_cons, List.prefix_append_right_inj] at hcut
          rw [List.flatMap_cons, List.prefix_append_right_inj, List.length_append,
            Nat.add_sub_cancel_left]
          exact ih hcut
        · exact List.nil_prefix
  obtain ⟨torn, htorn⟩ := hsplit
  refine ⟨torn, htorn.symm, ?_⟩
  have hlength := congrArg List.length htorn
  rw [List.length_append] at hlength
  rw [tornBytes]
  omega

/-! ## Replaying a prefix -/

/-- The replay of `file` ends well, with the entries of `es` whose frames lie wholly in it. -/
def ReplaysWholeFrames (walFile : String) (now : ℕ → Timestamp) (es : List WALEntry)
    (file : Bytes) : Prop :=
  ∃ out, ((opened walFile file).replayFrom 0 now).1 = .ok out ∧
    out.map WALEntry.summary = (wholeFrames es file.length).map WALEntry.summary

/-- **Crash at any byte.**  A prefix of the log replays to its whole frames iff
fewer than eight bytes of another frame are left in it. -/
theorem replaysWholeFrames_iff (walFile : String) (now : ℕ → Timestamp) {es : List WALEntry}
    (hes : ∀ e ∈ es, e.Loggable) {file : Bytes}
    (hcut : file <+: ((opened walFile []).appendAll es).bytes) :
    ReplaysWholeFrames walFile now es file ↔ tornBytes es file.length < 8 := by
  rw [bytes_opened_appendAll] at hcut
  obtain ⟨torn, hfile, htorn⟩ := prefix_frames hcut
  rw [← htorn]
  constructor
  · rintro ⟨out, hrun, hout⟩
    -- whatever is accepted is a list of frames and less than a header
    obtain ⟨-, tail, haccepted, htail⟩ := frames_of_replayFrom hrun
    rw [WALEntry.frames_of_summaries hout] at haccepted
    have hsame : torn = tail := List.append_cancel_left (hfile.symm.trans haccepted)
    rw [hsame]
    exact htail
  · intro hshort
    have hloggable : ∀ e ∈ wholeFrames es file.length, e.Loggable :=
      fun e he => hes e (mem_of_mem_wholeFrames he)
    have hrun := replayFrom_opened walFile now hloggable hshort
    rw [← hfile] at hrun
    exact ⟨_, hrun, map_summary_replayed_zero now 0 _⟩

/-- The log of two entries, cut off three bytes after the first frame, reads back. -/
theorem replaysWholeFrames_sample :
    ReplaysWholeFrames "wal.log" (fun _ => 0) [sampleEntry, sampleEntry]
      (sampleEntry.frame ++ sampleEntry.frame.take 3) := by
  refine (replaysWholeFrames_iff "wal.log" _ ?_ ?_).mpr (by decide +kernel)
  · intro e he
    simp only [List.mem_cons, List.not_mem_nil, or_false, or_self] at he
    rw [he]
    exact sampleEntry_loggable
  · decide +kernel

/-- The first ten bytes of the log of one entry: its header and two bytes of its record. -/
def tornSample : Bytes := sampleEntry.frame.take 10

theorem tornSample_prefix :
    tornSample <+: ((opened "wal.log" []).appendAll [sampleEntry]).bytes := by
  decide +kernel

/-- A log cut off inside a record is refused. -/
theorem not_replaysWholeFrames_tornSample :
    sampleEntry.Loggable ∧ tornSample <+: ((opened "wal.log" []).appendAll [sampleEntry]).bytes ∧
      ((opened "wal.log" tornSample).replayFrom 0 fun _ => 0).1
        = .error ⟨.storageError, "Incomplete record in WAL"⟩ ∧
      ¬ ReplaysWholeFrames "wal.log" (fun _ => 0) [sampleEntry] tornSample := by
  have hrefused : ((opened "wal.log" tornSample).replayFrom 0 fun _ => 0).1
      = .error ⟨.storageError, "Incomplete record in WAL"⟩ := by decide +kernel
  refine ⟨sampleEntry_loggable, tornSample_prefix, hrefused, ?_⟩
  rintro ⟨out, hrun, -⟩
  rw [hrefused] at hrun
  cases hrun

end WAL

end QcDatabase
