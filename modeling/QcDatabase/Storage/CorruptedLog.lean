/-
# Corrupted logs

The body of one record of a log is changed, and the log is replayed.  Whatever
the replay accepts is a list of frames (`frames_of_replayFrom`), so the records in
front of the changed one are read as they were written, the changed body is read
under the old checksum, and a burst of at most 32 bits is detected
(`corrupted_ne_frames`).

`append` cuts the length of a record to 32 bits.  A record of 4 GiB and more is
then read as a shorter one, and its value can hold frames of its own:
`hugeEntry` has the checksum of the record that it is taken for, and its last four
bytes are in no frame.
-/
import QcDatabase.Crc32cBursts
import QcDatabase.Storage.LogLimits

namespace QcDatabase

open ShiftRegister LittleEndian Crc32c

/-! ## Changed bodies -/

/-- What `WAL::append` writes in front of a record. -/
def WALEntry.header (e : WALEntry) : Bytes :=
  u32Bytes (UInt32.ofNat e.serialize.length) ++ u32Bytes (crc32c e.serialize)

theorem WALEntry.frame_eq (e : WALEntry) : e.frame = e.header ++ e.serialize := rfl

namespace WAL

/-- The log of `before`, `r` and `after` with another body in the frame of `r`. -/
def corrupted (before : List WALEntry) (r : WALEntry) (body : Bytes) (after : List WALEntry) :
    Bytes :=
  before.flatMap WALEntry.frame ++ (r.header ++ (body ++ after.flatMap WALEntry.frame))

/-- With its own body in it, it is the log that `append` writes. -/
theorem corrupted_serialize (walFile : String) (before : List WALEntry) (r : WALEntry)
    (after : List WALEntry) :
    corrupted before r r.serialize after
      = ((opened walFile []).appendAll (before ++ r :: after)).bytes := by
  rw [bytes_opened_appendAll, List.flatMap_append, List.flatMap_cons, r.frame_eq, corrupted,
    List.append_assoc]

/-- A change of at least one bit in a window of 32 bits of the body of one record makes
the replay fail. -/
def DetectsBursts (records : List WALEntry) : Prop :=
  ∀ before r after body, records = before ++ r :: after →
    Burst 32 (messageBits r.serialize) (messageBits body) →
    ∀ walFile now,
      Result.isOk ((opened walFile (corrupted before r body after)).replayFrom 0 now).1 = false

/-- A length that fits its field of 32 bits, or of which the field keeps a number that no
record has. -/
def LengthKept (n : ℕ) : Prop :=
  n < 2 ^ 32 ∨ n % 2 ^ 32 < 11 ∨ maxRecordLength < n % 2 ^ 32

/-- A record whose length is kept is not taken for one of another length. -/
theorem LengthKept.eq_of_field {n : ℕ} (hn : LengthKept n) {e : WALEntry} (he : e.Loggable)
    (h : u32Bytes (UInt32.ofNat n) = u32Bytes (UInt32.ofNat e.serialize.length)) :
    n = e.serialize.length := by
  have hle := he.length_le
  have hge := e.length_serialize
  have hmod : n % 2 ^ 32 = e.serialize.length % 2 ^ 32 := by
    have hword := congrArg toU32 h
    rw [toU32_u32Bytes, toU32_u32Bytes] at hword
    have hnat := congrArg UInt32.toNat hword
    rwa [UInt32.toNat_ofNat', UInt32.toNat_ofNat'] at hnat
  rw [LengthKept, hmod] at hn
  rw [maxRecordLength] at hle hn
  rw [Nat.mod_eq_of_lt (show e.serialize.length < 2 ^ 32 by omega)] at hmod hn
  rcases hn with hn | hn | hn
  · rw [← hmod, Nat.mod_eq_of_lt hn]
  · omega
  · omega

/-- The header of a record whose length is kept tells its length and its checksum. -/
theorem header_inj {r e : WALEntry} (hr : LengthKept r.serialize.length) (he : e.Loggable)
    {rest rest' : Bytes} (h : r.header ++ rest = e.header ++ rest') :
    r.serialize.length = e.serialize.length ∧ crc32c r.serialize = crc32c e.serialize ∧
      rest = rest' := by
  have hlen : r.header.length = e.header.length := by
    simp only [WALEntry.header, List.length_append, length_u32Bytes]
  have hheader := List.append_inj_left h hlen
  have hfield := List.append_inj_left hheader (by rw [length_u32Bytes, length_u32Bytes])
  have hcrc := congrArg toU32
    (List.append_inj_right hheader (by rw [length_u32Bytes, length_u32Bytes]))
  rw [toU32_u32Bytes, toU32_u32Bytes] at hcrc
  exact ⟨hr.eq_of_field he hfield, hcrc, List.append_inj_right h hlen⟩

/-- A log with a changed body is not a list of frames. -/
theorem corrupted_ne_frames {before : List WALEntry} {r : WALEntry} {body : Bytes}
    {after : List WALEntry} (hbefore : ∀ e ∈ before, LengthKept e.serialize.length)
    (hr : LengthKept r.serialize.length)
    (hburst : Burst 32 (messageBits r.serialize) (messageBits body)) {es : List WALEntry}
    (hes : ∀ e ∈ es, e.Loggable) {tail : Bytes} (htail : tail.length < 8) :
    corrupted before r body after ≠ es.flatMap WALEntry.frame ++ tail := by
  intro h
  rw [corrupted] at h
  -- the records before the damaged one are taken off both sides together
  induction before generalizing es with
  | nil =>
      rw [List.flatMap_nil, List.nil_append] at h
      rcases es with _ | ⟨e, es⟩
      · -- the tail is too short for the header
        have hlength := congrArg List.length h
        simp only [WALEntry.header, List.flatMap_nil, List.nil_append, List.length_append,
          length_u32Bytes] at hlength
        omega
      · rw [List.flatMap_cons, e.frame_eq, List.append_assoc, List.append_assoc] at h
        obtain ⟨hlen, hcrc, hrest⟩ := header_inj hr (hes e List.mem_cons_self) h
        have hbody : body.length = r.serialize.length := by
          have hbits := hburst.length_eq
          rw [length_messageBits, length_messageBits] at hbits
          omega
        have hsame := List.append_inj_left hrest (hbody.trans hlen)
        rw [← hsame] at hcrc
        exact crc32c_ne_of_burst hburst hcrc
  | cons b before ih =>
      rw [List.flatMap_cons, b.frame_eq, List.append_assoc, List.append_assoc] at h
      rcases es with _ | ⟨e, es⟩
      · have hlength := congrArg List.length h
        simp only [WALEntry.header, List.flatMap_nil, List.nil_append, List.length_append,
          length_u32Bytes] at hlength
        omega
      · rw [List.flatMap_cons, e.frame_eq, List.append_assoc, List.append_assoc] at h
        obtain ⟨hlen, -, hrest⟩ := header_inj (hbefore b List.mem_cons_self)
          (hes e List.mem_cons_self) h
        refine ih ?_ ?_ (List.append_inj_right hrest hlen)
        · exact fun e' he' => hbefore e' (List.mem_cons_of_mem _ he')
        · exact fun e' he' => hes e' (List.mem_cons_of_mem _ he')

/-! ## Records of 4 GiB -/

/-- An empty key and `n` zero bytes. -/
def zeros (n : ℕ) : WALEntry :=
  LSMTreeEngine.putRecord ⟨[], []⟩ ⟨List.replicate n 0, 0, 0, false⟩

theorem length_serialize_zeros (n : ℕ) : (zeros n).serialize.length = 11 + n := by
  rw [WALEntry.length_serialize, zeros, LSMTreeEngine.putRecord, List.length_replicate,
    List.length_nil]

theorem zeros_loggable {n : ℕ} (hn : 11 + n ≤ maxRecordLength) : (zeros n).Loggable where
  nulFree := ⟨List.not_mem_nil, List.not_mem_nil⟩
  length_le := by rw [length_serialize_zeros]; exact hn

/-- Records whose frames have `4 GiB * k - 4` bytes: 1 MiB each, and the last four less. -/
def fillers (k : ℕ) : List WALEntry :=
  List.replicate (2 ^ 12 * k - 1) (zeros (2 ^ 20 - 19)) ++ [zeros (2 ^ 20 - 23)]

theorem length_fillers {k : ℕ} (hk : 1 ≤ k) :
    ((fillers k).flatMap WALEntry.frame).length + 4 = 2 ^ 32 * k := by
  have hframe : ∀ n, (zeros n).frame.length = 19 + n := by
    intro n
    rw [WALEntry.length_frame, length_serialize_zeros]
    omega
  rw [fillers, List.flatMap_append, List.length_append, List.flatMap_singleton, hframe,
    List.length_flatMap, List.map_replicate, List.sum_replicate_nat, hframe]
  omega

theorem fillers_loggable (k : ℕ) : ∀ e ∈ fillers k, e.Loggable := by
  intro e he
  rcases List.mem_append.mp he with he | he
  · rw [List.eq_of_mem_replicate he]
    exact zeros_loggable (by decide)
  · rw [List.mem_singleton.mp he]
    exact zeros_loggable (by decide)

/-- A record that begins like `zeros m`, goes on with the frames of `fillers k` and has the
checksum of `zeros m`. -/
def hugeEntry (k m : ℕ) : WALEntry :=
  let filling := (fillers k).flatMap WALEntry.frame
  LSMTreeEngine.putRecord ⟨[], []⟩ ⟨List.replicate m 0 ++ (filling
    ++ fixup ((zeros m).serialize ++ filling) (zeros m).serialize), 0, 0, false⟩

theorem serialize_hugeEntry (k m : ℕ) :
    (hugeEntry k m).serialize = (zeros m).serialize ++ (fillers k).flatMap WALEntry.frame
      ++ fixup ((zeros m).serialize ++ (fillers k).flatMap WALEntry.frame)
        (zeros m).serialize := by
  simp only [hugeEntry, zeros, WALEntry.serialize, LSMTreeEngine.putRecord, List.append_assoc]

theorem length_serialize_hugeEntry {k : ℕ} (hk : 1 ≤ k) (m : ℕ) :
    (hugeEntry k m).serialize.length = 2 ^ 32 * k + (11 + m) := by
  have hfill := length_fillers hk
  rw [serialize_hugeEntry, List.length_append, List.length_append, length_serialize_zeros, fixup,
    length_u32Bytes]
  omega

/-- It is taken for `zeros m`. -/
theorem header_hugeEntry {k : ℕ} (hk : 1 ≤ k) (m : ℕ) :
    (hugeEntry k m).header = (zeros m).header := by
  have hlen : UInt32.ofNat (hugeEntry k m).serialize.length
      = UInt32.ofNat (zeros m).serialize.length := by
    apply UInt32.toNat_inj.mp
    rw [UInt32.toNat_ofNat', UInt32.toNat_ofNat', length_serialize_hugeEntry hk,
      length_serialize_zeros, Nat.mul_add_mod]
  rw [WALEntry.header, WALEntry.header, hlen, serialize_hugeEntry, crc32c_append_fixup]

/-- **Its last four bytes are not checked.** -/
theorem not_detectsBursts_of_huge {k : ℕ} (hk : 1 ≤ k) {m : ℕ} (hm : 11 + m ≤ maxRecordLength) :
    ¬ DetectsBursts [hugeEntry k m] := by
  intro h
  set filling := (fillers k).flatMap WALEntry.frame with hfilling
  set last := fixup ((zeros m).serialize ++ filling) (zeros m).serialize with hlast
  have hlength : last.length = 4 := length_u32Bytes _
  have hserialize : (hugeEntry k m).serialize = (zeros m).serialize ++ filling ++ last :=
    serialize_hugeEntry k m
  -- every byte of the end is changed
  have hne : last ≠ last.map (· ^^^ 1) := by
    intro heq
    have hfirst := congrArg (fun l : Bytes => l.head?) heq
    rcases hl : last with _ | ⟨b, l⟩
    · rw [hl] at hlength
      cases hlength
    · rw [hl, List.map_cons, List.head?_cons, List.head?_cons, Option.some.injEq] at hfirst
      have hbit : (1 : UInt8) = 0 := by
        rw [← UInt8.xor_right_inj b, UInt8.xor_zero, ← hfirst]
      exact absurd hbit (by decide)
  have hburst : Burst 32 (messageBits (hugeEntry k m).serialize)
      (messageBits ((zeros m).serialize ++ filling ++ last.map (· ^^^ 1))) := by
    rw [hserialize]
    exact burst_of_append _ (List.length_map _) hlength.le hne
  have hrun := h [] (hugeEntry k m) [] _ rfl hburst "wal.log" fun _ => 0
  have hfile : corrupted [] (hugeEntry k m)
      ((zeros m).serialize ++ filling ++ last.map (· ^^^ 1)) []
      = (zeros m :: fillers k).flatMap WALEntry.frame ++ last.map (· ^^^ 1) := by
    rw [corrupted, header_hugeEntry hk, List.flatMap_cons, WALEntry.frame_eq, List.flatMap_nil,
      List.nil_append, List.append_nil, ← hfilling]
    simp only [List.append_assoc]
  have hall : ∀ e ∈ zeros m :: fillers k, e.Loggable :=
    List.forall_mem_cons.mpr ⟨zeros_loggable hm, fillers_loggable k⟩
  rw [hfile, replayFrom_opened "wal.log" _ hall (by rw [List.length_map, hlength]; decide)] at hrun
  cases hrun

/-! ## Which lengths are safe -/

/-- **Which lengths are safe**: bursts are detected in every log with records of certain
lengths iff each of these lengths is kept. -/
theorem detectsBursts_iff_lengthKept (lengths : Set ℕ) :
    (∀ records : List WALEntry, (∀ r ∈ records, r.serialize.length ∈ lengths) →
      DetectsBursts records) ↔ ∀ n ∈ lengths, LengthKept n := by
  constructor
  · intro h n hn
    by_contra hlost
    rw [LengthKept] at hlost
    push Not at hlost
    obtain ⟨hlong, hrecord, hshort⟩ := hlost
    -- the length is `4 GiB * k` and the length of a record that is accepted
    have hlength : (hugeEntry (n / 2 ^ 32) (n % 2 ^ 32 - 11)).serialize.length = n := by
      rw [length_serialize_hugeEntry (by omega)]
      omega
    refine not_detectsBursts_of_huge (by omega) (by omega)
      (h [hugeEntry (n / 2 ^ 32) (n % 2 ^ 32 - 11)] ?_)
    intro r hr
    rwa [List.mem_singleton.mp hr, hlength]
  · rintro hkept records hrecords before r after body rfl hburst walFile now
    rcases hrun : ((opened walFile (corrupted before r body after)).replayFrom 0 now).1 with _ | es
    · rfl
    · obtain ⟨hes, tail, hfile, htail⟩ := frames_of_replayFrom hrun
      refine absurd hfile (corrupted_ne_frames ?_ ?_ hburst hes htail)
      · exact fun e he => hkept _ (hrecords e (List.mem_append_left _ he))
      · exact hkept _ (hrecords r (List.mem_append_right _ List.mem_cons_self))

/-- A record of 4 GiB and 11 bytes: a change in its last four bytes is not detected. -/
theorem not_detectsBursts_hugeEntry : ¬ DetectsBursts [hugeEntry 1 0] :=
  not_detectsBursts_of_huge le_rfl (by decide)

end WAL

end QcDatabase
