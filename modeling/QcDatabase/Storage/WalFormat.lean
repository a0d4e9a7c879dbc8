/-
# The log format is decoded exactly

`WAL::replay_from` on bytes that `WAL::append` wrote, and on bytes nobody
vouches for.  Forward: in front of the frames of a list of loggable entries the
loop returns these entries, as far as their sequence numbers are high enough
(`replayLoop_frames`).  Exactness: whatever the loop accepts is a list of
frames followed by fewer than eight bytes, the start of a header
(`frames_of_replayLoop`).

Both are inductions over the iterations of the loop; one iteration is
`replayLoop_frame` or `replayLoop_short`.
-/
import QcDatabase.Storage.Wal

open LittleEndian FileStream

namespace QcDatabase

namespace WALEntry

/-- What `deserialize` makes of an entry's own bytes at clock reading `now`: the
version, the timestamp and the deleted flag are not in them. -/
def decoded (e : WALEntry) (now : Timestamp) : WALEntry :=
  { e with data := { DataEntry.default now with value := e.data.value } }

theorem length_frame (e : WALEntry) : e.frame.length = 8 + e.serialize.length := by
  rw [frame, List.length_append, List.length_append, length_u32Bytes, length_u32Bytes]

/-- No frame is empty. -/
theorem length_le_length_frames (es : List WALEntry) :
    es.length ≤ (es.flatMap WALEntry.frame).length := by
  induction es with
  | nil => simp
  | cons e es ih =>
      rw [List.flatMap_cons, List.length_cons, List.length_append, e.length_frame]
      omega

end WALEntry

namespace WAL

/-- The entries a replay from `sequenceNumber` returns for the records `es`,
`i` entries having been returned before. -/
def replayed (sequenceNumber : UInt64) (now : ℕ → Timestamp) : ℕ → List WALEntry → List WALEntry
  | _, [] => []
  | i, e :: es =>
      if sequenceNumber ≤ e.sequenceNumber then
        e.decoded (now i) :: replayed sequenceNumber now (i + 1) es
      else replayed sequenceNumber now i es

/-- Records with lower numbers are passed over. -/
theorem replayed_eq_nil {n : UInt64} {es : List WALEntry} (h : ∀ e ∈ es, e.sequenceNumber < n)
    (now : ℕ → Timestamp) (i : ℕ) : replayed n now i es = [] := by
  induction es with
  | nil => rfl
  | cons e es ih =>
      rw [List.forall_mem_cons] at h
      rw [replayed, if_neg (UInt64.not_le.mpr h.1), ih h.2]

/-- From sequence number zero every record is returned. -/
theorem map_summary_replayed_zero (now : ℕ → Timestamp) (i : ℕ) (es : List WALEntry) :
    (replayed 0 now i es).map WALEntry.summary = es.map WALEntry.summary := by
  induction es generalizing i with
  | nil => rfl
  | cons e es ih =>
      rw [replayed, if_pos UInt64.zero_le, List.map_cons, List.map_cons, ih]
      rfl

/-! ## One iteration -/

/-- Fewer than eight bytes left: the loop ends with what it has, the stream
having failed. -/
theorem replayLoop_short {file : Bytes} {s : FileStream} (hs : s.Ready)
    (hshort : (file.drop s.pos).length < 8) (n : UInt64) (now : ℕ → Timestamp) (fuel : ℕ)
    (entries : List WALEntry) :
    ∃ s', replayLoop file n now (fuel + 1) s entries = (.ok entries, s') ∧
      s'.isOpen = true ∧ s'.fail = true := by
  rw [replayLoop, if_neg (by simp [hs.2])]
  by_cases h4 : (file.drop s.pos).length < 4
  · rw [read_of_short hs h4]
    dsimp only
    rw [if_pos (by omega)]
    exact ⟨_, rfl, hs.1, rfl⟩
  · rw [read_of_le hs (n := 4) (by omega)]
    have hlen : ((file.drop s.pos).take 4).length = 4 := by rw [List.length_take]; omega
    have hshort' : (file.drop (s.advance 4).pos).length < 4 := by
      rw [advance_pos, List.length_drop]
      rw [List.length_drop] at hshort h4
      omega
    dsimp only
    rw [if_neg (by simpa using hlen), read_of_short (hs.advance 4) hshort']
    dsimp only
    rw [if_pos (by omega)]
    exact ⟨_, rfl, hs.1, rfl⟩

/-- A frame of a loggable entry is consumed by one iteration. -/
theorem replayLoop_frame {file : Bytes} {s : FileStream} (hs : s.Ready) {e : WALEntry}
    (he : e.Loggable) {rest : Bytes} (hfile : file.drop s.pos = e.frame ++ rest) (n : UInt64)
    (now : ℕ → Timestamp) (fuel : ℕ) (entries : List WALEntry) :
    replayLoop file n now (fuel + 1) s entries
      = replayLoop file n now fuel (s.advance e.frame.length)
          (if n ≤ e.sequenceNumber then entries ++ [e.decoded (now entries.length)]
            else entries) := by
  have hle := he.length_le
  unfold maxRecordLength at hle
  have hlen : (UInt32.ofNat e.serialize.length).toNat = e.serialize.length := by
    rw [UInt32.toNat_ofNat', Nat.mod_eq_of_lt (by omega)]
  -- the three parts of the frame, each read from behind the previous one
  set lengthBytes := u32Bytes (UInt32.ofNat e.serialize.length) with hlb
  set crcBytes := u32Bytes (Crc32c.crc32c e.serialize) with hcb
  have h₁ : file.drop s.pos = lengthBytes ++ (crcBytes ++ (e.serialize ++ rest)) := by
    rw [hfile, WALEntry.frame, List.append_assoc, List.append_assoc]
  have h₂ := drop_advance h₁
  have h₃ := drop_advance h₂
  have r₁ := read_of_drop hs h₁
  have r₂ := read_of_drop (hs.advance _) h₂
  have r₃ := read_of_drop ((hs.advance _).advance _) h₃
  rw [show lengthBytes.length = 4 from length_u32Bytes _] at r₁ r₂ r₃
  rw [show crcBytes.length = 4 from length_u32Bytes _] at r₂ r₃
  rw [replayLoop, if_neg (by simp [hs.2]), r₁]
  dsimp only
  rw [if_neg (by simp [hlb]), r₂]
  dsimp only
  rw [if_neg (by simp [hcb]), hlb, toU32_u32Bytes, hlen,
    if_neg (by rw [maxRecordLength]; omega), r₃]
  dsimp only
  rw [if_neg (by simp), hcb, toU32_u32Bytes, if_neg (by simp),
    e.deserialize_serialize he.nulFree]
  have hadv : ((s.advance 4).advance 4).advance e.serialize.length
      = s.advance e.frame.length := by
    rw [e.length_frame]
    simp only [advance, FileStream.mk.injEq, true_and, and_true]
    omega
  rw [hadv]
  rfl

/-- **The loop never runs out of fuel**: an iteration that continues has
consumed its eight header bytes, so any bound above the number of bytes left
gives the same result. -/
theorem replayLoop_fuel (file : Bytes) (n : UInt64) (now : ℕ → Timestamp) :
    ∀ (fuel fuel' : ℕ) (s : FileStream) (entries : List WALEntry),
      (file.drop s.pos).length < fuel → (file.drop s.pos).length < fuel' →
      replayLoop file n now fuel s entries = replayLoop file n now fuel' s entries := by
  intro fuel
  induction fuel with
  | zero => intro fuel' s entries h; omega
  | succ fuel ih =>
      intro fuel' s entries hlt hlt'
      obtain ⟨fuel', rfl⟩ : ∃ f, fuel' = f + 1 := ⟨fuel' - 1, by omega⟩
      rw [replayLoop, replayLoop]
      by_cases hgood : (!s.good) = true
      · rw [if_pos hgood, if_pos hgood]
      rw [if_neg hgood, if_neg hgood]
      rcases h₁ : s.read file 4 with ⟨lengthBytes, s₁⟩
      dsimp only
      by_cases hl : lengthBytes.length ≠ 4
      · rw [if_pos hl, if_pos hl]
      rw [if_neg hl, if_neg hl]
      rcases h₂ : s₁.read file 4 with ⟨crcBytes, s₂⟩
      dsimp only
      by_cases hc : crcBytes.length ≠ 4
      · rw [if_pos hc, if_pos hc]
      rw [if_neg hc, if_neg hc]
      obtain ⟨hpos₁, hle₁⟩ := read_full h₁ (not_not.mp hl) (by omega)
      obtain ⟨hpos₂, hle₂⟩ := read_full h₂ (not_not.mp hc) (by omega)
      rcases h₃ : s₂.read file (toU32 lengthBytes).toNat with ⟨recordData, s₃⟩
      dsimp only
      split_ifs with hmax hdata hcrc
      · rfl
      · rfl
      · rfl
      cases WALEntry.deserialize recordData (now entries.length) with
      | error f => rfl
      | ok entry =>
          -- the record itself may be empty, the header was not
          have hpos₃ := pos_le_read h₃
          rw [List.length_drop] at hlt hlt' hle₁ hle₂
          exact ih fuel' s₃ _ (by rw [List.length_drop]; omega) (by rw [List.length_drop]; omega)

/-! ## Forward: frames come back as entries -/

/-- **Replay returns what was logged.**  In front of the frames of `es` and
fewer than eight further bytes, the loop ends well with the entries of `es`. -/
theorem replayLoop_frames {file : Bytes} {es : List WALEntry} (hes : ∀ e ∈ es, e.Loggable)
    {tail : Bytes} (htail : tail.length < 8) (n : UInt64) (now : ℕ → Timestamp) :
    ∀ (fuel : ℕ) (s : FileStream) (entries : List WALEntry), s.Ready →
      file.drop s.pos = es.flatMap WALEntry.frame ++ tail → es.length < fuel →
      ∃ s', replayLoop file n now fuel s entries
          = (.ok (entries ++ replayed n now entries.length es), s') ∧
        s'.isOpen = true ∧ s'.fail = true := by
  induction es with
  | nil =>
      intro fuel s entries hs hfile hfuel
      obtain ⟨fuel, rfl⟩ : ∃ f, fuel = f + 1 := ⟨fuel - 1, by simp at hfuel; omega⟩
      rw [List.flatMap_nil, List.nil_append] at hfile
      rw [replayed, List.append_nil]
      exact replayLoop_short hs (by rw [hfile]; exact htail) n now fuel entries
  | cons e es ih =>
      intro fuel s entries hs hfile hfuel
      obtain ⟨fuel, rfl⟩ : ∃ f, fuel = f + 1 := ⟨fuel - 1, by simp at hfuel; omega⟩
      rw [List.flatMap_cons, List.append_assoc] at hfile
      rw [replayLoop_frame hs (hes e List.mem_cons_self) hfile]
      obtain ⟨s', hrun, hopen, hfail⟩ := ih (fun e' he' => hes e' (List.mem_cons_of_mem _ he'))
        fuel _ (if n ≤ e.sequenceNumber then entries ++ [e.decoded (now entries.length)]
          else entries) (hs.advance _) (drop_advance hfile)
        (by rw [List.length_cons] at hfuel; omega)
      refine ⟨s', ?_, hopen, hfail⟩
      rw [hrun, replayed]
      split_ifs with hn
      · rw [List.append_assoc, List.length_append, List.length_singleton, List.singleton_append]
      · rfl

/-! ## Exactness: only frames are accepted -/

/-- Eight bytes or more split into the two header fields and the rest. -/
theorem exists_header {bytes : Bytes} (h : 8 ≤ bytes.length) :
    ∃ lengthBytes crcBytes body : Bytes, bytes = lengthBytes ++ (crcBytes ++ body) ∧
      lengthBytes.length = 4 ∧ crcBytes.length = 4 := by
  refine ⟨bytes.take 4, (bytes.drop 4).take 4, (bytes.drop 4).drop 4, ?_, ?_, ?_⟩
  · rw [List.take_append_drop, List.take_append_drop]
  · rw [List.length_take]
    omega
  · rw [List.length_take, List.length_drop]
    omega

/-- The frame of an entry that deserializes from its record. -/
theorem WALEntry.frame_of_deserialize {lengthBytes crcBytes recordData : Bytes} {now : Timestamp}
    {e : WALEntry} (hl : lengthBytes.length = 4) (hc : crcBytes.length = 4)
    (hdata : recordData.length = (toU32 lengthBytes).toNat)
    (hcrc : Crc32c.crc32c recordData = toU32 crcBytes)
    (hdes : WALEntry.deserialize recordData now = .ok e) :
    e.frame = lengthBytes ++ (crcBytes ++ recordData) := by
  have hlb : u32Bytes (UInt32.ofNat recordData.length) = lengthBytes := by
    rw [hdata, UInt32.ofNat_toNat, u32Bytes_toU32 hl]
  have hcb : u32Bytes (Crc32c.crc32c recordData) = crcBytes := by
    rw [hcrc, u32Bytes_toU32 hc]
  rw [WALEntry.frame, WALEntry.serialize_of_deserialize hdes, hlb, hcb, List.append_assoc]

/-- **Step lemma.**  If the loop ends well with eight bytes or more in front of
it, it has passed the frame of a loggable entry. -/
theorem frame_of_replayLoop_succ {file : Bytes} {n : UInt64} {now : ℕ → Timestamp} {fuel : ℕ}
    {s s' : FileStream} {entries out : List WALEntry} (hs : s.Ready)
    (hlong : 8 ≤ (file.drop s.pos).length)
    (hrun : replayLoop file n now (fuel + 1) s entries = (.ok out, s')) :
    ∃ (e : WALEntry) (rest : Bytes), e.Loggable ∧ file.drop s.pos = e.frame ++ rest ∧
      replayLoop file n now fuel (s.advance e.frame.length)
        (if n ≤ e.sequenceNumber then entries ++ [e] else entries) = (.ok out, s') := by
  obtain ⟨lengthBytes, crcBytes, body, hfile, hl, hc⟩ := exists_header hlong
  have hfile₂ := drop_advance hfile
  have hfile₃ := drop_advance hfile₂
  have r₁ := read_of_drop hs hfile
  have r₂ := read_of_drop (hs.advance _) hfile₂
  rw [hl] at r₁ r₂ hfile₃
  rw [hc] at r₂ hfile₃
  -- both fields of the header are read whole
  rw [replayLoop, if_neg (by simp [hs.2]), r₁] at hrun
  dsimp only at hrun
  rw [if_neg (by simp [hl]), r₂] at hrun
  dsimp only at hrun
  rw [if_neg (by simp [hc])] at hrun
  set recordLength := (toU32 lengthBytes).toNat with hrl
  by_cases hmax : maxRecordLength < recordLength
  · simp [hmax] at hrun
  rw [if_neg hmax] at hrun
  by_cases hbody : body.length < recordLength
  · -- the record is cut off: an error
    rw [read_of_short ((hs.advance 4).advance 4) (by rw [hfile₃]; exact hbody)] at hrun
    dsimp only at hrun
    rw [hfile₃, if_pos (by omega)] at hrun
    simp at hrun
  rw [read_of_le ((hs.advance 4).advance 4) (by rw [hfile₃]; omega)] at hrun
  have hdata : (body.take recordLength).length = recordLength := by
    rw [List.length_take]
    omega
  dsimp only at hrun
  rw [hfile₃, if_neg (by simp [hdata])] at hrun
  -- a checksum that differs is an error as well
  by_cases hcrc : Crc32c.crc32c (body.take recordLength) ≠ toU32 crcBytes
  · simp [hcrc] at hrun
  rw [if_neg hcrc] at hrun
  cases hdes : WALEntry.deserialize (body.take recordLength) (now entries.length) with
  | error f => simp [hdes] at hrun
  | ok e =>
      simp only [hdes] at hrun
      have hframe := WALEntry.frame_of_deserialize hl hc hdata (not_not.mp hcrc) hdes
      have hlength : e.frame.length = 4 + 4 + recordLength := by
        rw [hframe, List.length_append, List.length_append, hl, hc, hdata, Nat.add_assoc]
      -- the three reads together have passed the frame
      have hadvance : s.advance e.frame.length = ((s.advance 4).advance 4).advance recordLength := by
        rw [hlength]
        simp only [advance, Nat.add_assoc]
      refine ⟨e, body.drop recordLength, ?_, ?_, ?_⟩
      · exact WALEntry.loggable_of_deserialize hdes (by rw [hdata]; exact not_lt.mp hmax)
      · rw [hfile, hframe, List.append_assoc, List.append_assoc, List.take_append_drop]
      · rw [hadvance]
        exact hrun

/-- **Nothing else is accepted.**  If the loop ends well, what was in front of
it is a list of frames of loggable entries and fewer than eight bytes, and it
returned these entries. -/
theorem frames_of_replayLoop {file : Bytes} (n : UInt64) (now : ℕ → Timestamp) :
    ∀ (fuel : ℕ) (s s' : FileStream) (entries out : List WALEntry), s.Ready →
      replayLoop file n now fuel s entries = (.ok out, s') →
      ∃ (es : List WALEntry) (tail : Bytes), (∀ e ∈ es, e.Loggable) ∧
        file.drop s.pos = es.flatMap WALEntry.frame ++ tail ∧ tail.length < 8 ∧
        out = entries ++ es.filter (fun e => n ≤ e.sequenceNumber) := by
  intro fuel
  induction fuel with
  | zero =>
      intro s s' entries out _ hrun
      simp [replayLoop] at hrun
  | succ fuel ih =>
      intro s s' entries out hs hrun
      by_cases hshort : (file.drop s.pos).length < 8
      · obtain ⟨s'', hloop, -, -⟩ := replayLoop_short hs hshort n now fuel entries
        rw [hloop] at hrun
        simp only [Prod.mk.injEq, Except.ok.injEq] at hrun
        exact ⟨[], file.drop s.pos, by simp, rfl, hshort, by simp [hrun.1]⟩
      obtain ⟨e, rest, he, hfile, hrun'⟩ := frame_of_replayLoop_succ hs (not_lt.mp hshort) hrun
      obtain ⟨es, tail, hes, hrest, htail, hout⟩ := ih _ s' _ out (hs.advance _) hrun'
      rw [drop_advance hfile] at hrest
      refine ⟨e :: es, tail, List.forall_mem_cons.mpr ⟨he, hes⟩, ?_, htail, ?_⟩
      · rw [List.flatMap_cons, hfile, hrest, List.append_assoc]
      · rw [hout]
        by_cases hn : n ≤ e.sequenceNumber
        · rw [if_pos hn, List.filter_cons_of_pos (by rwa [decide_eq_true_eq]), List.append_assoc,
            List.singleton_append]
        · rw [if_neg hn, List.filter_cons_of_neg (by rwa [decide_eq_true_eq])]

/-! ## The log object on well-formed files -/

/-- The log object after `WAL::open` on an existing file. -/
def opened (walFile : String) (file : Bytes) : WAL :=
  ((create walFile (some file)).open .readWrite).2

/-- One `append` after the other. -/
def appendAll (w : WAL) (es : List WALEntry) : WAL := es.foldl (fun w e => (w.append e).2) w

/-- A log that is open, good and positioned at the end of its file. -/
structure AtEnd (w : WAL) : Prop where
  isOpen : w.isOpen = true
  ready : w.file.Ready
  pos_eq : w.file.pos = w.bytes.length

theorem seekpEnd_of_fresh (n : ℕ) :
    FileStream.seekpEnd ⟨true, 0, false, false, false⟩ n = ⟨true, n, false, false, false⟩ := by
  simp [seekpEnd, fail, moveTo]

theorem opened_eq (walFile : String) (file : Bytes) :
    opened walFile file = ⟨walFile, some file, ⟨true, file.length, false, false, false⟩, true, 0⟩ := by
  rw [← seekpEnd_of_fresh file.length]
  rfl

theorem atEnd_opened (walFile : String) (file : Bytes) : (opened walFile file).AtEnd := by
  rw [opened_eq]
  exact ⟨rfl, ⟨rfl, rfl⟩, rfl⟩

/-- At the end of the file `append` adds the frame of its entry. -/
theorem append_of_atEnd {w : WAL} (h : w.AtEnd) (e : WALEntry) :
    w.append e = (.ok (), { w with
      content := some (w.bytes ++ e.frame), file := w.file.advance e.frame.length,
      sequenceNumber := w.sequenceNumber + 1 }) := by
  set lengthBytes := u32Bytes (UInt32.ofNat e.serialize.length) with hlb
  set crcBytes := u32Bytes (Crc32c.crc32c e.serialize) with hcb
  have w₁ := write_at_end h.ready h.pos_eq lengthBytes
  have p₁ : (w.file.advance lengthBytes.length).pos = (w.bytes ++ lengthBytes).length := by
    rw [advance_pos, h.pos_eq, List.length_append]
  have w₂ := write_at_end (h.ready.advance _) p₁ crcBytes
  have p₂ : ((w.file.advance lengthBytes.length).advance crcBytes.length).pos
      = (w.bytes ++ lengthBytes ++ crcBytes).length := by
    rw [advance_pos, p₁]
    exact List.length_append.symm
  have w₃ := write_at_end ((h.ready.advance _).advance _) p₂ e.serialize
  rw [append, if_neg (by simp [h.isOpen])]
  dsimp only
  rw [← hlb, ← hcb, w₁]
  dsimp only
  rw [w₂]
  dsimp only
  rw [w₃]
  simp only [WALEntry.frame, List.append_assoc, advance, List.length_append, ← hlb, ← hcb,
    Nat.add_assoc]

theorem AtEnd.append {w : WAL} (h : w.AtEnd) (e : WALEntry) : (w.append e).2.AtEnd := by
  rw [append_of_atEnd h e]
  refine ⟨h.isOpen, h.ready.advance _, ?_⟩
  show w.file.pos + e.frame.length = (w.bytes ++ e.frame).length
  rw [h.pos_eq, List.length_append]

theorem AtEnd.appendAll {w : WAL} (h : w.AtEnd) (es : List WALEntry) : (w.appendAll es).AtEnd := by
  induction es generalizing w with
  | nil => exact h
  | cons e es ih => exact ih (h.append e)

/-- Appending neither opens nor closes the log. -/
theorem isOpen_append (w : WAL) (e : WALEntry) : (w.append e).2.isOpen = w.isOpen := by
  rw [append]
  split_ifs with hopen
  · rfl
  · rfl

theorem isOpen_appendAll (w : WAL) (es : List WALEntry) : (w.appendAll es).isOpen = w.isOpen := by
  induction es generalizing w with
  | nil => rfl
  | cons e es ih => exact (ih _).trans (isOpen_append w e)

theorem appendAll_append (w : WAL) (es es' : List WALEntry) :
    w.appendAll (es ++ es') = (w.appendAll es).appendAll es' :=
  List.foldl_append

/-- Appending a list of entries adds their frames. -/
theorem bytes_appendAll {w : WAL} (h : w.AtEnd) (es : List WALEntry) :
    (w.appendAll es).bytes = w.bytes ++ es.flatMap WALEntry.frame := by
  induction es generalizing w with
  | nil => simp [appendAll]
  | cons e es ih =>
      have hstep : (w.appendAll (e :: es)) = (w.append e).2.appendAll es := rfl
      rw [hstep, ih (h.append e), append_of_atEnd h e, List.flatMap_cons, ← List.append_assoc]
      rfl

/-- What a replay leaves behind: the same file, the stream failed. -/
theorem replayFrom_of_frames {w : WAL} (hopen : w.isOpen = true) (hready : w.file.Ready)
    {es : List WALEntry} (hes : ∀ e ∈ es, e.Loggable) (tail : Bytes) (htail : tail.length < 8)
    (hfile : w.bytes = es.flatMap WALEntry.frame ++ tail) (n : UInt64) (now : ℕ → Timestamp) :
    ∃ f : FileStream, w.replayFrom n now = (.ok (replayed n now 0 es), { w with file := f }) ∧
      f.isOpen = true ∧ f.fail = true := by
  have hready₀ : (w.file.seekg 0).Ready := by
    rw [seekg_zero_of_ready hready]
    exact hready
  have hdrop : w.bytes.drop (w.file.seekg 0).pos = es.flatMap WALEntry.frame ++ tail := by
    rw [seekg_zero_of_ready hready]
    exact hfile
  have hcount := WALEntry.length_le_length_frames es
  obtain ⟨f, hrun, hfo, hff⟩ := replayLoop_frames hes htail n now (w.bytes.length + 1)
    (w.file.seekg 0) [] hready₀ hdrop (by rw [hfile, List.length_append]; omega)
  refine ⟨f, ?_, hfo, hff⟩
  rw [replayFrom, if_neg (by simp [hopen]), hrun]
  rfl

/-- A log whose replay ends well is a list of frames of loggable entries and less than a
header, and the replay returned those with a number that is high enough. -/
theorem exists_frames_of_replayFrom {w : WAL} (h : w.AtEnd) {n : UInt64} {now : ℕ → Timestamp}
    {out : List WALEntry} (hrun : (w.replayFrom n now).1 = .ok out) :
    ∃ (es : List WALEntry) (tail : Bytes), (∀ e ∈ es, e.Loggable) ∧ tail.length < 8 ∧
      w.bytes = es.flatMap WALEntry.frame ++ tail ∧
      out = es.filter (fun e => n ≤ e.sequenceNumber) := by
  rw [replayFrom, if_neg (by simp [h.isOpen])] at hrun
  obtain ⟨es, tail, hes, hfile, htail, hout⟩ := frames_of_replayLoop n now _
    (w.file.seekg 0) _ [] out (by rw [seekg_zero_of_ready h.ready]; exact h.ready)
    (Prod.ext hrun rfl)
  rw [seekg_zero_of_ready h.ready, List.drop_zero] at hfile
  exact ⟨es, tail, hes, htail, hfile, hout⟩

/-- A file whose replay ends well is a list of frames of loggable entries and
less than a header. -/
theorem frames_of_replayFrom {walFile : String} {file : Bytes} {now : ℕ → Timestamp}
    {es : List WALEntry} (hrun : ((opened walFile file).replayFrom 0 now).1 = .ok es) :
    (∀ e ∈ es, e.Loggable) ∧
      ∃ tail : Bytes, file = es.flatMap WALEntry.frame ++ tail ∧ tail.length < 8 := by
  obtain ⟨es', tail, hes', htail, hfile, hout⟩ :=
    exists_frames_of_replayFrom (atEnd_opened walFile file) hrun
  have hall : es'.filter (fun e => 0 ≤ e.sequenceNumber) = es' := by simp
  rw [opened_eq] at hfile
  rw [hout, hall]
  exact ⟨hes', tail, hfile, htail⟩

/-- The frames of loggable entries and less than a header replay to these entries. -/
theorem replayFrom_opened (walFile : String) (now : ℕ → Timestamp) {es : List WALEntry}
    (hes : ∀ e ∈ es, e.Loggable) {tail : Bytes} (htail : tail.length < 8) :
    ((opened walFile (es.flatMap WALEntry.frame ++ tail)).replayFrom 0 now).1
      = .ok (replayed 0 now 0 es) := by
  have h := atEnd_opened walFile (es.flatMap WALEntry.frame ++ tail)
  obtain ⟨f, hrun, -, -⟩ := replayFrom_of_frames h.isOpen h.ready hes tail htail
    (by rw [opened_eq]; rfl) 0 now
  rw [hrun]

/-- What `append` makes of a new log. -/
theorem bytes_opened_appendAll (walFile : String) (es : List WALEntry) :
    ((opened walFile []).appendAll es).bytes = es.flatMap WALEntry.frame := by
  rw [bytes_appendAll (atEnd_opened walFile []), opened_eq]
  rfl

/-- **The log format is decoded exactly**, in both directions.  The frames are
those `append` writes to an empty log. -/
theorem replayFrom_append_exact (walFile : String) (now : ℕ → Timestamp) :
    (∀ es : List WALEntry, (∀ e ∈ es, e.Loggable) →
      ∃ out, ((opened walFile ((opened walFile []).appendAll es).bytes).replayFrom 0 now).1
          = .ok out ∧ out.map WALEntry.summary = es.map WALEntry.summary) ∧
    (∀ (file : Bytes) (es : List WALEntry), ((opened walFile file).replayFrom 0 now).1 = .ok es →
      ∃ tail : Bytes, file = ((opened walFile []).appendAll es).bytes ++ tail ∧
        tail.length < 8) := by
  constructor
  · intro es hes
    refine ⟨_, ?_, map_summary_replayed_zero now 0 es⟩
    rw [bytes_opened_appendAll, ← List.append_nil (es.flatMap WALEntry.frame)]
    exact replayFrom_opened walFile now hes (by decide)
  · intro file es hrun
    rw [bytes_opened_appendAll]
    exact (frames_of_replayFrom hrun).2

/-- Key `("u", "0")` with a value that contains a NUL. -/
def sampleEntry : WALEntry := ⟨.put, ⟨[117], [48]⟩, ⟨[7, 0, 9], 1, 5, false⟩, 3⟩

theorem sampleEntry_loggable : sampleEntry.Loggable := ⟨by decide, by decide⟩

/-- The frame of `sampleEntry` reads back, and a file that reads as nothing has
fewer than eight bytes. -/
theorem replayFrom_append_exact_sample :
    (∃ out, ((opened "wal.log" ((opened "wal.log" []).appendAll [sampleEntry]).bytes).replayFrom 0
        fun _ => 0).1 = .ok out ∧ out.map WALEntry.summary = [sampleEntry.summary]) ∧
      ∃ tail : Bytes, [1, 2, 3] = ((opened "wal.log" []).appendAll []).bytes ++ tail ∧
        tail.length < 8 := by
  have h := replayFrom_append_exact "wal.log" fun _ => 0
  constructor
  · refine h.1 [sampleEntry] ?_
    intro e he
    rw [List.mem_singleton.mp he]
    exact sampleEntry_loggable
  · exact h.2 [1, 2, 3] [] (by decide)

end WAL

end QcDatabase
