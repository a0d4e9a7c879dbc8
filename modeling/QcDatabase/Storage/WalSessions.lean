/-
# The log object over whole runs

Sequences of `open`, `append`, `sync`, `replay_from` and `close` on one `WAL`
whose file does not exist at first.  The file stream fails when a replay meets
the end of the file, and nothing but a successful `open` clears it again: from
then on `append` writes nothing and a second replay reads nothing, while both
return `OK`.  And an `open` that may only write empties the file before it fails.

`LogHistory` follows a run without looking at the stream: whether the log is
open, whether a replay has taken place since it was opened, whether anything was
appended, and whether any of that was lost, to a replay of its session or to an
`open`.
`RunInv` ties the object to this history, and `replayFrom_returns_logged_iff`
says for which runs a replay returns what was logged.
-/
import QcDatabase.Storage.WalFormat

open FileStream

namespace QcDatabase.WAL

/-- A call on the log object.  `now` are the clock readings of a replay. -/
inductive Op where
  | «open» (access : LogAccess)
  | append (e : WALEntry)
  | sync
  | replayFrom (sequenceNumber : UInt64) (now : ℕ → Timestamp)
  | close

/-- The object after a call. -/
def step (w : WAL) : Op → WAL
  | .open access => (w.open access).2
  | .append e => (w.append e).2
  | .sync => w.sync.2
  | .replayFrom n now => (w.replayFrom n now).2
  | .close => w.close.2

/-- The object after a sequence of calls. -/
def run (w : WAL) (ops : List Op) : WAL := ops.foldl step w

/-- The entry a call has logged: that of an `append` which returned `OK`. -/
def loggedBy (w : WAL) : Op → List WALEntry
  | .append e => if Result.isOk (w.append e).1 then [e] else []
  | _ => []

/-- The entries whose `append` returned `OK`, in append order. -/
def logged (w : WAL) : List Op → List WALEntry
  | [] => []
  | op :: ops => loggedBy w op ++ logged (w.step op) ops

/-- Every entry that is passed to `append`. -/
def Op.Loggable : Op → Prop
  | .append e => e.Loggable
  | _ => True

/-! ## Histories -/

/-- What a sequence of calls has done so far. -/
structure LogHistory where
  isOpen : Bool
  /-- a replay has taken place since the log was opened -/
  replayed : Bool
  /-- some append has found the log open -/
  appended : Bool
  /-- some append has found the log open and replayed, or an open that could only write came
  after some append -/
  lost : Bool
  deriving DecidableEq, Repr

namespace LogHistory

/-- Before the first call. -/
def init : LogHistory := ⟨false, false, false, false⟩

/-- One more call. -/
def step (h : LogHistory) : Op → LogHistory
  | .open access =>
      if h.isOpen then h
      else
        match access with
        | .readWrite => { h with isOpen := true, replayed := false }
        | .writeOnly => { h with lost := h.lost || h.appended }
        | .refused => h
        | .threw _ => h
  | .append _ =>
      if h.isOpen then
        { h with appended := true, lost := h.lost || h.replayed }
      else h
  | .sync => h
  | .replayFrom _ _ => if h.isOpen then { h with replayed := true } else h
  | .close => { h with isOpen := false }

/-- The history of a sequence of calls. -/
def of (ops : List Op) : LogHistory := ops.foldl step init

/-- Nothing was lost, and if the running session has replayed, nothing was appended at
all. -/
def ReadsBack (h : LogHistory) : Prop :=
  h.lost = false ∧ (h.replayed = true → h.appended = false)

instance (h : LogHistory) : Decidable h.ReadsBack := inferInstanceAs (Decidable (_ ∧ _))

end LogHistory

/-! ## The invariant of a run -/

/-- The object `w` after calls with history `h` that logged `es`, of which `kept`
are in the file. -/
structure RunInv (w : WAL) (h : LogHistory) (es kept : List WALEntry) : Prop where
  isOpen_eq : w.isOpen = h.isOpen
  bytes_eq : w.bytes = kept.flatMap WALEntry.frame
  loggable : ∀ e ∈ kept, e.Loggable
  atEnd : h.isOpen = true → h.replayed = false → w.AtEnd
  failed : h.isOpen = true → h.replayed = true → w.file.isOpen = true ∧ w.file.fail = true
  detached : h.isOpen = false → w.file.isOpen = false
  kept_eq : h.lost = false → kept = es
  kept_lt : h.lost = true → kept.length < es.length
  kept_le : kept.length ≤ es.length
  appended_iff : h.appended = true ↔ es ≠ []

theorem runInv_create (walFile : String) : RunInv (create walFile none) LogHistory.init [] [] where
  isOpen_eq := rfl
  bytes_eq := rfl
  loggable := by simp
  atEnd := by intro h; cases h
  failed := by intro h; cases h
  detached := fun _ => rfl
  kept_eq := fun _ => rfl
  kept_lt := by intro h; cases h
  kept_le := le_rfl
  appended_iff := by simp [LogHistory.init]

theorem good_eq_false_of_fail {s : FileStream} (h : s.fail = true) : s.good = false := by
  cases hf : s.failbit <;> cases hb : s.badbit <;> simp_all [FileStream.fail, FileStream.good]

/-- On a failed stream `append` changes nothing but the counter. -/
theorem append_of_fail {w : WAL} (hopen : w.isOpen = true) (hfail : w.file.fail = true)
    (e : WALEntry) :
    w.append e = (.ok (), { w with
      content := some w.bytes, sequenceNumber := w.sequenceNumber + 1 }) := by
  have hg := good_eq_false_of_fail hfail
  rw [append, if_neg (by simp [hopen])]
  simp only [write_of_not_good hg]

/-- On a failed stream a replay returns nothing and stays failed. -/
theorem replayFrom_of_fail {w : WAL} (hopen : w.isOpen = true) (hfail : w.file.fail = true)
    (n : UInt64) (now : ℕ → Timestamp) :
    w.replayFrom n now = (.ok [], { w with file := { w.file with eofbit := false } }) := by
  have hg : ({ w.file with eofbit := false } : FileStream).good = false :=
    good_eq_false_of_fail hfail
  rw [replayFrom, if_neg (by simp [hopen]), seekg_of_fail hfail, replayLoop, if_pos (by simp [hg])]

/-- `open` on a closed log with a detached stream. -/
theorem open_of_detached {w : WAL} (hclosed : w.isOpen = false) (hdet : w.file.isOpen = false) :
    w.open .readWrite = (.ok (), { w with
      content := some w.bytes, file := ⟨true, w.bytes.length, false, false, false⟩,
      isOpen := true }) := by
  rw [WAL.open, if_neg (by simp [hclosed])]
  rw [openStream]
  cases hc : w.content with
  | none =>
      simp [openFile, hdet, FileStream.close, seekpEnd, FileStream.fail, moveTo, bytes, hc,
        LogAccess.readable, LogAccess.writable]
  | some file =>
      simp [openFile, hdet, seekpEnd, FileStream.fail, moveTo, bytes, hc, LogAccess.readable]

/-- `open` where the system refuses access leaves the log closed. -/
theorem open_of_refused {w : WAL} (hclosed : w.isOpen = false) (hdet : w.file.isOpen = false) :
    w.open .refused = (.error ⟨.storageError, "Failed to create WAL file: " ++ w.walFile⟩,
      { w with file := { w.file with failbit := true } }) := by
  rw [WAL.open, if_neg (by simp [hclosed])]
  simp [openStream, openFile, hdet, LogAccess.readable, LogAccess.writable]

/-- `open` where the file may only be written empties it and fails. -/
theorem open_of_writeOnly {w : WAL} (hclosed : w.isOpen = false) (hdet : w.file.isOpen = false) :
    w.open .writeOnly = (.error ⟨.storageError, "Failed to open WAL file: " ++ w.walFile⟩,
      { w with content := some [], file := ⟨false, 0, false, true, false⟩ }) := by
  rw [WAL.open, if_neg (by simp [hclosed])]
  simp [openStream, openFile, hdet, FileStream.close, LogAccess.readable, LogAccess.writable]

theorem open_of_threw {w : WAL} (hclosed : w.isOpen = false) (what : String) :
    w.open (.threw what) = (.error ⟨.storageError, "Failed to open WAL: " ++ what⟩, w) := by
  rw [WAL.open, if_neg (by simp [hclosed])]

/-- `open` of a closed log succeeds only where the file may be read and written. -/
theorem access_of_open_ok {w w' : WAL} {access : LogAccess} (hclosed : w.isOpen = false)
    (hdet : w.file.isOpen = false) (h : w.open access = (.ok (), w')) : access = .readWrite := by
  cases access with
  | readWrite => rfl
  | writeOnly =>
      rw [open_of_writeOnly hclosed hdet] at h
      cases h
  | refused =>
      rw [open_of_refused hclosed hdet] at h
      cases h
  | threw what =>
      rw [open_of_threw hclosed] at h
      cases h

/-- An `open` that fails leaves the log closed, and the file as it was or empty. -/
theorem closed_of_open_error {w w' : WAL} {access : LogAccess} {f : Failure}
    (hclosed : w.isOpen = false) (hdet : w.file.isOpen = false)
    (h : w.open access = (.error f, w')) :
    w'.isOpen = false ∧ w'.file.isOpen = false ∧ (w'.bytes = w.bytes ∨ w'.bytes = []) := by
  cases access with
  | readWrite =>
      rw [open_of_detached hclosed hdet] at h
      cases h
  | writeOnly =>
      rw [open_of_writeOnly hclosed hdet] at h
      obtain rfl := (Prod.mk.inj h).2
      exact ⟨hclosed, rfl, Or.inr rfl⟩
  | refused =>
      rw [open_of_refused hclosed hdet] at h
      obtain rfl := (Prod.mk.inj h).2
      exact ⟨hclosed, hdet, Or.inl rfl⟩
  | threw what =>
      rw [open_of_threw hclosed] at h
      obtain rfl := (Prod.mk.inj h).2
      exact ⟨hclosed, hdet, Or.inl rfl⟩

/-! ## One call keeps the invariant -/

theorem RunInv.step_open {w : WAL} {h : LogHistory} {es kept : List WALEntry}
    (hi : RunInv w h es kept) (access : LogAccess) :
    ∃ kept', RunInv (w.open access).2 (h.step (.open access)) es kept' := by
  cases ho : h.isOpen with
  | true =>
      have hw : w.isOpen = true := by rw [hi.isOpen_eq, ho]
      rw [WAL.open.eq_def, if_pos hw, LogHistory.step.eq_def]
      dsimp only
      rw [if_pos ho]
      exact ⟨kept, hi⟩
  | false =>
      have hw : w.isOpen = false := by rw [hi.isOpen_eq, ho]
      have hdet := hi.detached ho
      cases access with
      | readWrite =>
          rw [open_of_detached hw hdet, LogHistory.step, if_neg (by simp [ho])]
          exact ⟨kept, { hi with
            isOpen_eq := rfl
            atEnd := fun _ _ => ⟨rfl, ⟨rfl, rfl⟩, rfl⟩
            failed := fun _ h' => by cases h'
            detached := fun h' => by cases h' }⟩
      | writeOnly =>
          rw [open_of_writeOnly hw hdet, LogHistory.step, if_neg (by simp [ho])]
          refine ⟨[], {
            isOpen_eq := hi.isOpen_eq
            bytes_eq := rfl
            loggable := by simp
            atEnd := fun h' => by simp [ho] at h'
            failed := fun h' => by simp [ho] at h'
            detached := fun _ => rfl
            kept_eq := ?_
            kept_lt := ?_
            kept_le := Nat.zero_le _
            appended_iff := hi.appended_iff }⟩
          · intro h'
            obtain ⟨-, happended⟩ := Bool.or_eq_false_iff.mp h'
            by_contra hne
            rw [hi.appended_iff.mpr (Ne.symm hne)] at happended
            cases happended
          · -- whatever was appended is gone
            intro h'
            have happended : es ≠ [] := by
              rcases Bool.or_eq_true_iff.mp h' with hlost | happended
              · exact List.length_pos_iff.mp (lt_of_le_of_lt (Nat.zero_le _) (hi.kept_lt hlost))
              · exact hi.appended_iff.mp happended
            exact List.length_pos_iff.mpr happended
      | refused =>
          rw [open_of_refused hw hdet, LogHistory.step, if_neg (by simp [ho])]
          exact ⟨kept, { hi with
            atEnd := fun h' => by simp [ho] at h'
            failed := fun h' => by simp [ho] at h'
            detached := fun _ => hdet }⟩
      | threw what =>
          rw [open_of_threw hw, LogHistory.step, if_neg (by simp [ho])]
          exact ⟨kept, hi⟩

/-- Before a replay the stream is good and at the end: the frame goes into the
file. -/
theorem RunInv.append_of_not_replayed {w : WAL} {h : LogHistory} {es kept : List WALEntry}
    (hi : RunInv w h es kept) (ho : h.isOpen = true) (hr : h.replayed = false) {e : WALEntry}
    (he : e.Loggable) :
    RunInv (w.append e).2
      { h with appended := true, lost := h.lost || h.replayed }
      (es ++ [e]) (kept ++ [e]) := by
  have hend := hi.atEnd ho hr
  have hend' := hend.append e
  rw [append_of_atEnd hend e] at *
  exact {
    isOpen_eq := hi.isOpen_eq
    bytes_eq := by
      show w.bytes ++ e.frame = _
      rw [hi.bytes_eq, List.flatMap_append, List.flatMap_singleton]
    loggable := by
      intro e' he'
      rcases List.mem_append.mp he' with he' | he'
      · exact hi.loggable e' he'
      · rw [List.mem_singleton.mp he']
        exact he
    atEnd := fun _ _ => hend'
    failed := fun _ h' => by simp [hr] at h'
    detached := fun h' => by simp [ho] at h'
    kept_eq := fun h' => by
      simp only [hr, Bool.or_false] at h'
      rw [hi.kept_eq h']
    kept_lt := fun h' => by
      simp only [hr, Bool.or_false] at h'
      simpa using hi.kept_lt h'
    kept_le := by simpa using hi.kept_le
    appended_iff := by simp }

/-- After a replay the stream has failed: the entry is lost, and `append` still
returns `OK`. -/
theorem RunInv.append_of_replayed {w : WAL} {h : LogHistory} {es kept : List WALEntry}
    (hi : RunInv w h es kept) (ho : h.isOpen = true) (hr : h.replayed = true) (e : WALEntry) :
    RunInv (w.append e).2
      { h with appended := true, lost := h.lost || h.replayed }
      (es ++ [e]) kept := by
  have hlt : kept.length < (es ++ [e]).length := by
    have hle := hi.kept_le
    rw [List.length_append, List.length_singleton]
    omega
  obtain ⟨hfo, hff⟩ := hi.failed ho hr
  rw [append_of_fail ((hi.isOpen_eq).trans ho) hff e]
  exact {
    isOpen_eq := hi.isOpen_eq
    bytes_eq := hi.bytes_eq
    loggable := hi.loggable
    atEnd := fun _ h' => by simp [hr] at h'
    failed := fun _ _ => ⟨hfo, hff⟩
    detached := fun h' => by simp [ho] at h'
    kept_eq := fun h' => by simp [hr] at h'
    kept_lt := fun _ => hlt
    kept_le := hlt.le
    appended_iff := by simp }

/-- An open log has logged what it appends. -/
theorem loggedBy_append_of_isOpen {w : WAL} (hopen : w.isOpen = true) (e : WALEntry) :
    loggedBy w (.append e) = [e] := by
  have hok : Result.isOk (w.append e).1 = true := by
    rw [append, if_neg (by simp [hopen])]
    rfl
  rw [loggedBy, if_pos hok]

theorem RunInv.step_append {w : WAL} {h : LogHistory} {es kept : List WALEntry}
    (hi : RunInv w h es kept) (e : WALEntry) (he : e.Loggable) :
    ∃ kept', RunInv (w.append e).2 (h.step (.append e)) (es ++ loggedBy w (.append e)) kept' := by
  cases ho : h.isOpen with
  | false =>
      have hw : w.isOpen = false := by rw [hi.isOpen_eq, ho]
      refine ⟨kept, ?_⟩
      rw [loggedBy, append, if_pos (by simp [hw]), LogHistory.step, if_neg (by simp [ho])]
      simpa using hi
  | true =>
      rw [LogHistory.step, if_pos ho, loggedBy_append_of_isOpen (hi.isOpen_eq.trans ho)]
      cases hr : h.replayed with
      | false => exact ⟨kept ++ [e], hr ▸ hi.append_of_not_replayed ho hr he⟩
      | true => exact ⟨kept, hr ▸ hi.append_of_replayed ho hr e⟩

theorem RunInv.step_replayFrom {w : WAL} {h : LogHistory} {es kept : List WALEntry}
    (hi : RunInv w h es kept) (n : UInt64) (now : ℕ → Timestamp) :
    RunInv (w.replayFrom n now).2 (h.step (.replayFrom n now)) es kept := by
  cases ho : h.isOpen with
  | false =>
      have hw : w.isOpen = false := by rw [hi.isOpen_eq, ho]
      rw [replayFrom, if_pos (by simp [hw]), LogHistory.step, if_neg (by simp [ho])]
      exact hi
  | true =>
      have hw : w.isOpen = true := by rw [hi.isOpen_eq, ho]
      -- whatever the stream was before, it is open and failed afterwards
      obtain ⟨f, hf, hfo, hff⟩ : ∃ f : FileStream,
          (w.replayFrom n now).2 = { w with file := f } ∧ f.isOpen = true ∧ f.fail = true := by
        cases hr : h.replayed with
        | false =>
            have hend := hi.atEnd ho hr
            obtain ⟨f, hrun, hfo, hff⟩ := replayFrom_of_frames hw hend.ready
              hi.loggable [] (by simp) (by simpa using hi.bytes_eq) n now
            exact ⟨f, by rw [hrun], hfo, hff⟩
        | true =>
            obtain ⟨hfo, hff⟩ := hi.failed ho hr
            exact ⟨{ w.file with eofbit := false }, by rw [replayFrom_of_fail hw hff], hfo, hff⟩
      rw [hf, LogHistory.step, if_pos ho]
      exact { hi with
        atEnd := fun _ h' => by cases h'
        failed := fun _ _ => ⟨hfo, hff⟩
        detached := fun h' => by simp [ho] at h' }

theorem RunInv.step_close {w : WAL} {h : LogHistory} {es kept : List WALEntry}
    (hi : RunInv w h es kept) : RunInv w.close.2 (h.step .close) es kept := by
  cases ho : h.isOpen with
  | false =>
      have hw : w.isOpen = false := by rw [hi.isOpen_eq, ho]
      rw [WAL.close, if_pos (by simp [hw]), LogHistory.step, ← ho]
      exact hi
  | true =>
      have hw : w.isOpen = true := by rw [hi.isOpen_eq, ho]
      have hdet : (if w.file.isOpen then w.file.flush.close else w.file).isOpen = false := by
        cases hf : w.file.isOpen <;> simp [FileStream.close, FileStream.flush, hf]
      rw [WAL.close, if_neg (by simp [hw]), LogHistory.step]
      exact { hi with
        isOpen_eq := rfl
        atEnd := fun h' => by cases h'
        failed := fun h' => by cases h'
        detached := fun _ => hdet }

/-- **Step lemma.**  Every call keeps the invariant, with the entry it logged
added. -/
theorem RunInv.step {w : WAL} {h : LogHistory} {es kept : List WALEntry} (hi : RunInv w h es kept)
    (op : Op) (hop : op.Loggable) :
    ∃ kept', RunInv (w.step op) (h.step op) (es ++ loggedBy w op) kept' := by
  cases op with
  | «open» access =>
      obtain ⟨kept', hi'⟩ := hi.step_open access
      refine ⟨kept', ?_⟩
      show RunInv (w.open access).2 _ (es ++ []) kept'
      rw [List.append_nil]
      exact hi'
  | append e => exact hi.step_append e hop
  | sync =>
      refine ⟨kept, ?_⟩
      have hw : w.sync.2 = w := by unfold sync; split_ifs <;> rfl
      show RunInv w.sync.2 h (es ++ []) kept
      rw [hw, List.append_nil]
      exact hi
  | replayFrom n now =>
      refine ⟨kept, ?_⟩
      show RunInv (w.replayFrom n now).2 _ (es ++ []) kept
      rw [List.append_nil]
      exact hi.step_replayFrom n now
  | close =>
      refine ⟨kept, ?_⟩
      show RunInv w.close.2 _ (es ++ []) kept
      rw [List.append_nil]
      exact hi.step_close

/-- **Run lemma.** -/
theorem RunInv.run {w : WAL} {h : LogHistory} {es kept : List WALEntry} (hi : RunInv w h es kept)
    (ops : List Op) (hops : ∀ op ∈ ops, op.Loggable) :
    ∃ kept', RunInv (w.run ops) (ops.foldl LogHistory.step h) (es ++ logged w ops) kept' := by
  induction ops generalizing w h es kept with
  | nil => exact ⟨kept, by simpa [WAL.run, logged] using hi⟩
  | cons op ops ih =>
      obtain ⟨kept', hi'⟩ := hi.step op (hops op List.mem_cons_self)
      obtain ⟨kept'', hi''⟩ := ih hi' (fun op' hop' => hops op' (List.mem_cons_of_mem _ hop'))
      refine ⟨kept'', ?_⟩
      rw [logged, ← List.append_assoc]
      exact hi''

/-! ## When a replay returns what was logged -/

/-- Nothing is missing from the file iff nothing was lost. -/
theorem RunInv.summaries_eq_iff {w : WAL} {h : LogHistory} {es kept : List WALEntry}
    (hi : RunInv w h es kept) :
    kept.map WALEntry.summary = es.map WALEntry.summary ↔ h.lost = false := by
  constructor
  · intro hsum
    have hlen := congrArg List.length hsum
    rw [List.length_map, List.length_map] at hlen
    by_contra hlost
    have hlt := hi.kept_lt (by simpa using hlost)
    omega
  · intro hlost
    rw [hi.kept_eq hlost]

/-- Nothing was logged iff no append has found the log open; nothing can then have been
lost. -/
theorem RunInv.logged_nil_iff {w : WAL} {h : LogHistory} {es kept : List WALEntry}
    (hi : RunInv w h es kept) :
    es = [] ↔ h.lost = false ∧ h.appended = false := by
  constructor
  · rintro rfl
    constructor
    · by_contra hlost
      have hlt := hi.kept_lt (by simpa using hlost)
      exact absurd hlt (Nat.not_lt_zero _)
    · by_contra happ
      exact hi.appended_iff.mp (by simpa using happ) rfl
  · rintro ⟨-, happ⟩
    by_contra hne
    rw [hi.appended_iff.mpr hne] at happ
    cases happ

/-- **The log reads back exactly when no replay stands in the way.**  After any
calls on a new log, if it is open, `replay_from(0)` returns the logged entries
if and only if no append came after a replay of its session, no `open` that could
only write came after an append and, in a session that has already replayed,
nothing was logged at all. -/
theorem replayFrom_returns_logged_iff (walFile : String) (ops : List Op)
    (hops : ∀ op ∈ ops, op.Loggable) (hopen : ((create walFile none).run ops).isOpen = true)
    (now : ℕ → Timestamp) :
    (∃ out, (((create walFile none).run ops).replayFrom 0 now).1 = .ok out ∧
        out.map WALEntry.summary = (logged (create walFile none) ops).map WALEntry.summary) ↔
      (LogHistory.of ops).ReadsBack := by
  obtain ⟨kept, hi⟩ := (runInv_create walFile).run ops hops
  rw [List.nil_append] at hi
  change RunInv _ (LogHistory.of ops) _ kept at hi
  have ho : (LogHistory.of ops).isOpen = true := by rw [← hi.isOpen_eq, hopen]
  -- the replay returns what the file keeps, or nothing on a failed stream
  have hreplay : ∃ out, (((create walFile none).run ops).replayFrom 0 now).1 = .ok out ∧
      (out.map WALEntry.summary = (logged (create walFile none) ops).map WALEntry.summary ↔
        (LogHistory.of ops).ReadsBack) := by
    rw [LogHistory.ReadsBack]
    cases hr : (LogHistory.of ops).replayed with
    | false =>
        obtain ⟨f, hrun, -, -⟩ := replayFrom_of_frames hopen (hi.atEnd ho hr).ready hi.loggable []
          (by simp) (by simpa using hi.bytes_eq) 0 now
        refine ⟨_, by rw [hrun], ?_⟩
        rw [map_summary_replayed_zero, hi.summaries_eq_iff]
        simp
    | true =>
        obtain ⟨-, hfail⟩ := hi.failed ho hr
        refine ⟨[], by rw [replayFrom_of_fail hopen hfail], ?_⟩
        rw [List.map_nil, eq_comm, List.map_eq_nil_iff, hi.logged_nil_iff]
        simp
  obtain ⟨out, hout, hiff⟩ := hreplay
  rw [← hiff]
  constructor
  · rintro ⟨out', hout', hsum⟩
    rw [hout] at hout'
    obtain rfl := Except.ok.inj hout'
    exact hsum
  · intro hsum
    exact ⟨out, hout, hsum⟩

/-- Two sessions, the first of which appends before it replays. -/
theorem replayFrom_returns_logged_two_sessions :
    ∃ out, (((create "wal.log" none).run [.open .readWrite, .append sampleEntry, .close, .open .readWrite,
        .append sampleEntry]).replayFrom 0 fun _ => 0).1 = .ok out ∧
      out.map WALEntry.summary = (logged (create "wal.log" none) [.open .readWrite, .append sampleEntry,
        .close, .open .readWrite, .append sampleEntry]).map WALEntry.summary := by
  refine (replayFrom_returns_logged_iff "wal.log" _ ?_ (by decide) _).mpr (by decide)
  simp [Op.Loggable, sampleEntry_loggable]

/-- **Recovery loses what is logged after it.**  The log is opened and replayed,
as the engine does when it starts; then an entry is appended with result `OK`,
and the log closed and opened again.  A replay returns nothing. -/
theorem replayFrom_loses_append_after_replay :
    logged (create "wal.log" none) [.open .readWrite, .replayFrom 0 fun _ => 0, .append sampleEntry,
        .close, .open .readWrite] = [sampleEntry] ∧
      ¬ ∃ out, (((create "wal.log" none).run [.open .readWrite, .replayFrom 0 fun _ => 0,
          .append sampleEntry, .close, .open .readWrite]).replayFrom 0 fun _ => 0).1 = .ok out ∧
        out.map WALEntry.summary = [sampleEntry.summary] := by
  have hlogged : logged (create "wal.log" none) [.open .readWrite, .replayFrom 0 fun _ => 0,
      .append sampleEntry, .close, .open .readWrite] = [sampleEntry] := by decide
  have hempty : (((create "wal.log" none).run [.open .readWrite, .replayFrom 0 fun _ => 0,
      .append sampleEntry, .close, .open .readWrite]).replayFrom 0 fun _ => 0).1 = .ok [] := by decide
  refine ⟨hlogged, ?_⟩
  rintro ⟨out, hout, hsum⟩
  rw [hempty] at hout
  obtain rfl := Except.ok.inj hout
  cases hsum

end QcDatabase.WAL
