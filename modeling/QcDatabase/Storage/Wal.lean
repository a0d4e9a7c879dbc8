/-
# The write-ahead log (`src/storage/wal.cpp`)

Records of the log, their byte layout, and the `WAL` object: one file stream
that both appends records and reads them back.

* `WALEntry.serialize` / `WALEntry.deserialize`: type byte, sequence number,
  the two NUL-terminated key parts, and the value up to the end of the record;
* `WAL.append` writes the length, the checksum and the serialized record with
  three stream writes, none of which is checked;
* `WAL.replayFrom` reads records from the start of the file until the stream is
  no longer good;
* `WAL.truncate` rewrites the file with the records that it reads back.

The object carries the bytes of the file at its path (`content`), since no other
object writes that file.  `replayLoop` takes the number of iterations it may
make; every iteration that continues has consumed at least eight bytes, so one
more than the length of the file is enough (`replayLoop_fuel` in
`WalFormat.lean`).  `now i` is the clock reading taken while the `i`-th returned
entry is decoded: `deserialize` starts from a default-constructed entry.
-/
import QcDatabase.Crc32c
import QcDatabase.Lib.FileStream
import QcDatabase.Lib.LittleEndian

open LittleEndian

namespace QcDatabase

/-! ## Log records -/

/-- `WALEntryType`, an enumeration over `uint8_t`: every byte is a value of it,
the four named ones included. -/
structure WALEntryType where
  code : UInt8
  deriving DecidableEq, Repr

namespace WALEntryType

def put : WALEntryType := ⟨1⟩
def delete : WALEntryType := ⟨2⟩
def flush : WALEntryType := ⟨3⟩
def checkpoint : WALEntryType := ⟨4⟩

end WALEntryType

/-- `WALEntry`. -/
structure WALEntry where
  type : WALEntryType
  key : MultiLevelKey
  data : DataEntry
  sequenceNumber : UInt64
  deriving DecidableEq, Repr

/-- The bytes before the first NUL and the bytes after it. -/
def splitNul : Bytes → Option (Bytes × Bytes)
  | [] => none
  | b :: l => if b = nul then some ([], l) else (splitNul l).map fun (p, r) => (b :: p, r)

namespace WALEntry

/-- `WALEntry::serialize`. -/
def serialize (e : WALEntry) : Bytes :=
  [e.type.code] ++ u64Bytes e.sequenceNumber ++ e.key.primaryKey ++ [nul]
    ++ e.key.secondaryKey ++ [nul] ++ e.data.value

/-- `WALEntry::deserialize`, at clock reading `now`. -/
def deserialize (data : Bytes) (now : Timestamp) : Result WALEntry :=
  match data with
  | [] => .error ⟨.invalidArgument, "Empty data"⟩
  | code :: rest =>
      if rest.length < 8 then .error ⟨.invalidArgument, "Invalid data format"⟩
      else
        match splitNul (rest.drop 8) with
        | none => .error ⟨.invalidArgument, "Invalid key format"⟩
        | some (primary, rest') =>
            match splitNul rest' with
            | none => .error ⟨.invalidArgument, "Invalid key format"⟩
            | some (secondary, value) =>
                .ok { type := ⟨code⟩
                      key := ⟨primary, secondary⟩
                      data := { DataEntry.default now with value := value }
                      sequenceNumber := toU64 (rest.take 8) }

end WALEntry

/-! ## The log object -/

/-- `WAL`, together with the bytes of the file at `walFile` (`none` while there
is no such file). -/
structure WAL where
  walFile : String
  content : Option Bytes
  file : FileStream
  isOpen : Bool
  sequenceNumber : UInt64
  deriving DecidableEq, Repr

/-- What the system lets a call of `WAL::open` do with the file. -/
inductive LogAccess where
  | readWrite
  /-- the file may be opened for writing alone -/
  | writeOnly
  | refused
  /-- `create_directories` throws an exception that says `what` -/
  | threw (what : String)
  deriving DecidableEq, Repr

/-- Opening for reading and writing is allowed. -/
def LogAccess.readable : LogAccess → Bool
  | .readWrite => true
  | _ => false

/-- Opening for writing alone is allowed. -/
def LogAccess.writable : LogAccess → Bool
  | .readWrite => true
  | .writeOnly => true
  | _ => false

namespace WAL

/-- `WAL::WAL` on a path where the file has these contents. -/
def create (walFile : String) (content : Option Bytes) : WAL :=
  ⟨walFile, content, FileStream.init, false, 0⟩

/-- The bytes a stream on the log file sees. -/
def bytes (w : WAL) : Bytes := w.content.getD []

/-- `WAL::open` behind `create_directories`. -/
def openStream (w : WAL) (access : LogAccess) : Result Unit × WAL :=
  let f := w.file.openFile (access.readable && w.content.isSome)
  if f.isOpen then
    (.ok (), { w with file := f.seekpEnd w.bytes.length, isOpen := true })
  else
    -- `ios::out` alone creates the file, or empties the one that is there
    let f := f.openFile access.writable
    if !f.isOpen then
      (.error ⟨.storageError, "Failed to create WAL file: " ++ w.walFile⟩, { w with file := f })
    else
      let f := f.close.openFile access.readable
      if !f.isOpen then
        (.error ⟨.storageError, "Failed to open WAL file: " ++ w.walFile⟩,
          { w with file := f, content := some [] })
      else
        (.ok (), { w with file := f.seekpEnd 0, content := some [], isOpen := true })

/-- `WAL::open`. -/
def «open» (w : WAL) (access : LogAccess) : Result Unit × WAL :=
  if w.isOpen then (.ok (), w)
  else
    match access with
    | .threw what => (.error ⟨.storageError, "Failed to open WAL: " ++ what⟩, w)
    | .readWrite | .writeOnly | .refused => w.openStream access

/-- `WAL::close`. -/
def close (w : WAL) : Result Unit × WAL :=
  if !w.isOpen then (.ok (), w)
  else
    let f := if w.file.isOpen then w.file.flush.close else w.file
    (.ok (), { w with file := f, isOpen := false })

/-- `WAL::append`. -/
def append (w : WAL) (entry : WALEntry) : Result Unit × WAL :=
  if !w.isOpen then (.error ⟨.storageError, "WAL is not open"⟩, w)
  else
    let serializedEntry := entry.serialize
    let recordLength := UInt32.ofNat serializedEntry.length
    let crc := Crc32c.crc32c serializedEntry
    -- the state of the stream is not checked, neither before nor after
    let (bytes, f) := w.file.write w.bytes (u32Bytes recordLength)
    let (bytes, f) := f.write bytes (u32Bytes crc)
    let (bytes, f) := f.write bytes serializedEntry
    (.ok (), { w with content := some bytes, file := f, sequenceNumber := w.sequenceNumber + 1 })

/-- `WAL::sync`. -/
def sync (w : WAL) : Result Unit × WAL :=
  if !w.isOpen then (.error ⟨.storageError, "WAL is not open"⟩, w)
  else (.ok (), { w with file := w.file.flush })

/-- The limit on the length of a record (`1024 * 1024`). -/
def maxRecordLength : ℕ := 1024 * 1024

/-- The `while (file_->good())` loop of `WAL::replay_from`, with the entries
collected so far. -/
def replayLoop (file : Bytes) (sequenceNumber : UInt64) (now : ℕ → Timestamp) :
    ℕ → FileStream → List WALEntry → Result (List WALEntry) × FileStream
  | 0, s, _ => (.error ⟨.storageError, "replay loop out of fuel"⟩, s)
  | fuel + 1, s, entries =>
      if !s.good then (.ok entries, s)
      else
        let (lengthBytes, s) := s.read file 4
        if lengthBytes.length ≠ 4 then (.ok entries, s)
        else
          let (crcBytes, s) := s.read file 4
          if crcBytes.length ≠ 4 then (.ok entries, s)
          else
            let recordLength := (toU32 lengthBytes).toNat
            if maxRecordLength < recordLength then
              (.error ⟨.storageError,
                "Invalid record length in WAL: " ++ toString recordLength⟩, s)
            else
              let (recordData, s) := s.read file recordLength
              if recordData.length ≠ recordLength then
                (.error ⟨.storageError, "Incomplete record in WAL"⟩, s)
              else if Crc32c.crc32c recordData ≠ toU32 crcBytes then
                (.error ⟨.storageError, "CRC mismatch in WAL record"⟩, s)
              else
                match WALEntry.deserialize recordData (now entries.length) with
                | .error _ => (.error ⟨.storageError, "Failed to deserialize WAL entry"⟩, s)
                | .ok entry =>
                    replayLoop file sequenceNumber now fuel s
                      (if sequenceNumber ≤ entry.sequenceNumber then entries ++ [entry]
                        else entries)

/-- `WAL::replay_from`. -/
def replayFrom (w : WAL) (sequenceNumber : UInt64) (now : ℕ → Timestamp) :
    Result (List WALEntry) × WAL :=
  if !w.isOpen then (.error ⟨.storageError, "WAL is not open"⟩, w)
  else
    -- every round but the last reads a header of eight bytes
    let (r, f) := replayLoop w.bytes sequenceNumber now (w.bytes.length + 1) (w.file.seekg 0) []
    (r, { w with file := f })

end WAL

/-! ## Records and their bytes -/

/-- What a replayed entry is compared on: type, sequence number, key and
value. -/
def WALEntry.summary (e : WALEntry) : WALEntryType × UInt64 × MultiLevelKey × Bytes :=
  (e.type, e.sequenceNumber, e.key, e.data.value)

/-- The bytes `WAL::append` writes for an entry. -/
def WALEntry.frame (e : WALEntry) : Bytes :=
  u32Bytes (UInt32.ofNat e.serialize.length) ++ u32Bytes (Crc32c.crc32c e.serialize) ++ e.serialize

/-- The rest of `WAL::truncate`: the file is written anew with these entries.
`writable` and `accessible` say whether it can be opened for that and afterwards. -/
def WAL.rewrite (w : WAL) (entries : List WALEntry) (writable accessible : Bool) :
    Result Unit × WAL :=
  let w := { w with file := w.file.close }
  if !writable then (.error ⟨.storageError, "Failed to truncate WAL file"⟩, w)
  else
    let content := entries.flatMap WALEntry.frame
    let f := w.file.openFile accessible
    if !f.isOpen then
      (.error ⟨.storageError, "Failed to reopen WAL after truncation"⟩,
        { w with content := some content, file := f })
    else (.ok (), { w with content := some content, file := f.seekpEnd content.length })

/-- `WAL::truncate`; its call of `replay_from` is taken as the body of that function. -/
def WAL.truncate (w : WAL) (sequenceNumber : UInt64) (now : ℕ → Timestamp)
    (writable accessible : Bool) : Result Unit × WAL :=
  if !w.isOpen then (.error ⟨.storageError, "WAL is not open"⟩, w)
  else
    match w.replayFrom sequenceNumber now with
    | (.error f, w) => (.error ⟨.storageError, f.errorMessage⟩, w)
    | (.ok entries, w) => w.rewrite entries writable accessible

/-- `WAL::file_size`: the position for writing, and 0 where there is none. -/
def WAL.fileSize (w : WAL) : ℕ :=
  if !w.isOpen || !w.file.isOpen || w.file.fail then 0 else w.file.pos

/-- The entries the log format is meant for: no NUL in the key parts, at most
1 MiB serialized. -/
structure WALEntry.Loggable (e : WALEntry) : Prop where
  nulFree : e.key.NulFree
  length_le : e.serialize.length ≤ WAL.maxRecordLength

theorem splitNul_append {p : Bytes} (hp : nul ∉ p) (r : Bytes) :
    splitNul (p ++ nul :: r) = some (p, r) := by
  induction p with
  | nil => simp [splitNul]
  | cons b p ih =>
      rw [List.mem_cons, not_or] at hp
      rw [List.cons_append, splitNul, if_neg (Ne.symm hp.1), ih hp.2]
      rfl

theorem eq_append_of_splitNul_eq_some {l p r : Bytes} (h : splitNul l = some (p, r)) :
    l = p ++ nul :: r := by
  induction l generalizing p with
  | nil => simp [splitNul] at h
  | cons b l ih =>
      rw [splitNul] at h
      split_ifs at h with hb
      · simp only [Option.some.injEq, Prod.mk.injEq] at h
        obtain ⟨rfl, rfl⟩ := h
        rw [hb]
        rfl
      · obtain ⟨⟨p', r'⟩, hs, heq⟩ := Option.map_eq_some_iff.mp h
        simp only [Prod.mk.injEq] at heq
        obtain ⟨rfl, rfl⟩ := heq
        rw [ih hs]
        rfl

/-- The part before the first NUL has none. -/
theorem nul_not_mem_of_splitNul {l p r : Bytes} (h : splitNul l = some (p, r)) : nul ∉ p := by
  induction l generalizing p with
  | nil => simp [splitNul] at h
  | cons b l ih =>
      rw [splitNul] at h
      split_ifs at h with hb
      · simp only [Option.some.injEq, Prod.mk.injEq] at h
        rw [← h.1]
        exact List.not_mem_nil
      · obtain ⟨⟨p', r'⟩, hs, heq⟩ := Option.map_eq_some_iff.mp h
        simp only [Prod.mk.injEq] at heq
        obtain ⟨rfl, rfl⟩ := heq
        rw [List.mem_cons, not_or]
        exact ⟨Ne.symm hb, ih hs⟩

/-- A string with a NUL splits, and what comes after that NUL stays behind the split. -/
theorem splitNul_append_nul (p r : Bytes) :
    ∃ p' q, splitNul (p ++ nul :: r) = some (p', q ++ r) := by
  induction p with
  | nil => exact ⟨[], [], by simp [splitNul]⟩
  | cons b p ih =>
      rw [List.cons_append, splitNul]
      split_ifs with hb
      · exact ⟨[], p ++ [nul], by simp⟩
      · obtain ⟨p', q, hs⟩ := ih
        exact ⟨b :: p', q, by rw [hs]; rfl⟩

/-- The layout of a serialized entry. -/
theorem WALEntry.serialize_eq (e : WALEntry) :
    e.serialize = e.type.code :: (u64Bytes e.sequenceNumber ++ (e.key.primaryKey ++ nul ::
      (e.key.secondaryKey ++ nul :: e.data.value))) := by
  simp [WALEntry.serialize]

/-- Decoding an encoded entry gives its type, key, sequence number and value;
the other fields are those of a default-constructed entry. -/
theorem WALEntry.deserialize_serialize (e : WALEntry) (hnul : e.key.NulFree) (now : Timestamp) :
    WALEntry.deserialize e.serialize now
      = .ok { e with data := { DataEntry.default now with value := e.data.value } } := by
  have hlen : ¬ (u64Bytes e.sequenceNumber ++ (e.key.primaryKey ++ nul ::
      (e.key.secondaryKey ++ nul :: e.data.value))).length < 8 := by
    rw [List.length_append, length_u64Bytes]
    omega
  rw [e.serialize_eq, WALEntry.deserialize, if_neg hlen,
    List.drop_left' (length_u64Bytes e.sequenceNumber),
    List.take_left' (length_u64Bytes e.sequenceNumber), splitNul_append hnul.1]
  dsimp only
  rw [splitNul_append hnul.2, toU64_u64Bytes]

/-- Whatever is serialized can be decoded, if not always to the same keys. -/
theorem WALEntry.exists_deserialize (e : WALEntry) (now : Timestamp) :
    ∃ e', WALEntry.deserialize e.serialize now = .ok e' := by
  have hlen : ¬ (u64Bytes e.sequenceNumber ++ (e.key.primaryKey ++ nul ::
      (e.key.secondaryKey ++ nul :: e.data.value))).length < 8 := by
    rw [List.length_append, length_u64Bytes]
    omega
  obtain ⟨primary, q, hfirst⟩ :=
    splitNul_append_nul e.key.primaryKey (e.key.secondaryKey ++ nul :: e.data.value)
  obtain ⟨secondary, q', hsecond⟩ :=
    splitNul_append_nul (q ++ e.key.secondaryKey) e.data.value
  rw [e.serialize_eq, WALEntry.deserialize, if_neg hlen,
    List.drop_left' (length_u64Bytes e.sequenceNumber), hfirst]
  dsimp only
  rw [← List.append_assoc, hsecond]
  exact ⟨_, rfl⟩

/-- Whatever decodes is the encoding of what it decodes to. -/
theorem WALEntry.serialize_of_deserialize {data : Bytes} {now : Timestamp} {e : WALEntry}
    (h : WALEntry.deserialize data now = .ok e) : e.serialize = data := by
  cases data with
  | nil => simp [WALEntry.deserialize] at h
  | cons code rest =>
      rw [WALEntry.deserialize] at h
      split_ifs at h with hlen
      cases hs₁ : splitNul (rest.drop 8) with
      | none => simp [hs₁] at h
      | some pr =>
          obtain ⟨primary, rest'⟩ := pr
          simp only [hs₁] at h
          cases hs₂ : splitNul rest' with
          | none => simp [hs₂] at h
          | some sv =>
              obtain ⟨secondary, value⟩ := sv
              simp only [hs₂, Except.ok.injEq] at h
              have h₁ := eq_append_of_splitNul_eq_some hs₁
              have h₂ := eq_append_of_splitNul_eq_some hs₂
              have hseq : u64Bytes (toU64 (rest.take 8)) = rest.take 8 :=
                u64Bytes_toU64 (by rw [List.length_take]; omega)
              rw [WALEntry.serialize_eq, ← h]
              dsimp only
              rw [hseq, ← h₂, ← h₁, List.take_append_drop]

/-- What a record of an allowed length decodes to is loggable. -/
theorem WALEntry.loggable_of_deserialize {data : Bytes} {now : Timestamp} {e : WALEntry}
    (h : WALEntry.deserialize data now = .ok e) (hlen : data.length ≤ WAL.maxRecordLength) :
    e.Loggable := by
  refine ⟨?_, by rwa [WALEntry.serialize_of_deserialize h]⟩
  cases data with
  | nil => simp [WALEntry.deserialize] at h
  | cons code rest =>
      rw [WALEntry.deserialize] at h
      split_ifs at h
      rcases hs₁ : splitNul (rest.drop 8) with _ | ⟨primary, rest'⟩
      · simp [hs₁] at h
      · simp only [hs₁] at h
        rcases hs₂ : splitNul rest' with _ | ⟨secondary, value⟩
        · simp [hs₂] at h
        · simp only [hs₂, Except.ok.injEq] at h
          rw [← h]
          exact ⟨nul_not_mem_of_splitNul hs₁, nul_not_mem_of_splitNul hs₂⟩

/-- A record of an allowed length has the frame of a loggable one. -/
theorem WALEntry.exists_loggable (e : WALEntry) (hlen : e.serialize.length ≤ WAL.maxRecordLength) :
    ∃ e' : WALEntry, e'.Loggable ∧ e'.frame = e.frame := by
  obtain ⟨e', he'⟩ := e.exists_deserialize 0
  refine ⟨e', WALEntry.loggable_of_deserialize he' hlen, ?_⟩
  rw [frame, frame, WALEntry.serialize_of_deserialize he']

end QcDatabase
