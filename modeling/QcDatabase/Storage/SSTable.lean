/-
# Sorted tables on disk (`src/storage/sstable.cpp`)

A table file holds, in this order: magic number, version and entry count; the
entries in key order, each with its flattened key; the index, one triple of
flattened key, offset and size per entry; and the offset of the index.  Every
integer is little-endian.

* `SSTable.write` lays the file out and keeps the index in memory;
* `SSTable.loadIndex` finds the index through the last eight bytes and splits
  each flattened key at its first `':'`;
* `SSTable.read` and `SSTable.rangeScan` search the index in memory and then
  read the file at the offsets found there.

No read of a file is checked, so a short or foreign file is read through
stream operations that deliver too little and then nothing: `Uninit` is what a
local variable holds that no read has set.  Nor is a write checked once the file
is open: on a full disk `SSTable.write` returns `OK` for a file that ends early.
What the disk does to a write is its `WriteOutcome`.  Memory is taken to suffice.
-/
import Mathlib.Data.String.Basic
import QcDatabase.Lib.FileStream
import QcDatabase.Lib.LittleEndian
import QcDatabase.Storage.MemTable

open FileStream LittleEndian OrderedSearch

namespace QcDatabase

/-- The files under the data directory, by path. -/
abbrev Directory := SortedMap String Bytes

/-- The contents of uninitialised local variables, by width; the two words of the header
that `load_index` compares have their own. -/
structure Uninit where
  u8 : UInt8
  u32 : UInt32
  u64 : UInt64
  magicNumber : UInt32
  version : UInt32

/-- What the environment does to a call of `SSTable::write`. -/
inductive WriteOutcome where
  | written
  /-- the stream takes `taken` bytes and fails; at most `left` of them reach the file, and
  its last byte does not -/
  | short (taken left : ℕ)
  /-- the file cannot be opened for writing -/
  | notOpened
  /-- an exception says `what`; `left` is what it leaves in the file, if it
  changes the file -/
  | threw (what : String) (left : Option Bytes)
  deriving DecidableEq, Repr

/-- The write returns `OK` if there are entries. -/
def WriteOutcome.reportsOk : WriteOutcome → Bool
  | .written => true
  | .short _ _ => true
  | .notOpened => false
  | .threw _ _ => false

/-- `SSTable::IndexEntry`. -/
structure IndexEntry where
  key : MultiLevelKey
  offset : UInt64
  size : UInt32
  deriving DecidableEq, Repr

/-- `SSTable`. -/
structure SSTable where
  filename : String
  index : List IndexEntry
  size : ℕ
  deriving DecidableEq, Repr

namespace SSTable

/-- `SSTable::SSTable`. -/
def create (filename : String) : SSTable := ⟨filename, [], 0⟩

@[simp] theorem create_filename (filename : String) : (create filename).filename = filename := rfl

/-! ## Writing a table -/

/-- The first four bytes of a table file (`"STAL"` in memory order). -/
def magicNumber : UInt32 := 0x5354414C

/-- The format version in the next four bytes. -/
def formatVersion : UInt32 := 1

/-- A string with its size in front: as many bytes follow as the size says. -/
def sizedBytes (s : Bytes) : Bytes :=
  let size := UInt32.ofNat s.length
  u32Bytes size ++ s.take size.toNat

/-- The bytes of one entry. -/
def entryBytes (key : MultiLevelKey) (entry : DataEntry) : Bytes :=
  sizedBytes key.toString ++ sizedBytes entry.value ++ u64Bytes entry.version
    ++ u64Bytes entry.timestamp.toUInt64 ++ [if entry.deleted then 1 else 0]

/-- The bytes of one index entry. -/
def indexEntryBytes (e : IndexEntry) : Bytes :=
  sizedBytes e.key.toString ++ u64Bytes e.offset ++ u32Bytes e.size

/-- `tellp` of a stream to which these bytes were written: the file only grows. -/
def endOfFile (file : Bytes) : UInt64 := UInt64.ofNat file.length

/-- `tellp` of a stream that takes `taken` bytes: −1 once it has failed. -/
def endOfTaken (taken : ℕ) (file : Bytes) : UInt64 :=
  if file.length ≤ taken then endOfFile file else -1

/-- The loop over the entries, with the bytes written and the index so far. -/
def writeEntries (tellp : Bytes → UInt64) :
    List (MultiLevelKey × DataEntry) → Bytes → List IndexEntry → Bytes × List IndexEntry
  | [], file, index => (file, index)
  | (key, entry) :: data, file, index =>
      let currentOffset := tellp file
      let file := file ++ entryBytes key entry
      let size := (tellp file - currentOffset).toUInt32
      writeEntries tellp data file (index ++ [⟨key, currentOffset, size⟩])

/-- Magic number, format version and entry count. -/
def header (data : List (MultiLevelKey × DataEntry)) : Bytes :=
  u32Bytes magicNumber ++ u32Bytes formatVersion ++ u32Bytes (UInt32.ofNat data.length)

/-- The bytes written for a table, and its index. -/
def layoutBy (tellp : Bytes → UInt64) (data : List (MultiLevelKey × DataEntry)) :
    Bytes × List IndexEntry :=
  let (file, index) := writeEntries tellp data (header data) []
  let indexOffset := tellp file
  let file := file ++ u32Bytes (UInt32.ofNat index.length) ++ index.flatMap indexEntryBytes
  (file ++ u64Bytes indexOffset, index)

/-- The file of a table and its index. -/
def layout (data : List (MultiLevelKey × DataEntry)) : Bytes × List IndexEntry :=
  layoutBy endOfFile data

/-- `SSTable::write`. -/
def write (t : SSTable) (dir : Directory) (data : SortedMap MultiLevelKey DataEntry)
    (outcome : WriteOutcome) : Result Unit × SSTable × Directory :=
  if data.entries.isEmpty then (.error ⟨.invalidArgument, "Cannot write empty data"⟩, t, dir)
  else
    match outcome with
    | .notOpened =>
        (.error ⟨.storageError, "Failed to open SSTable file for writing: " ++ t.filename⟩, t, dir)
    | .threw what left =>
        (.error ⟨.storageError, "Failed to write SSTable: " ++ what⟩, t,
          match left with
          | none => dir
          | some file => dir.insert t.filename file)
    | .written =>
        let (file, index) := layout data.entries
        (.ok (), { t with index := index, size := data.size }, dir.insert t.filename file)
    | .short taken left =>
        -- the state of the stream is never looked at
        let (file, index) := layoutBy (endOfTaken taken) data.entries
        (.ok (), { t with index := index, size := data.size },
          dir.insert t.filename (file.take (min taken (min left (file.length - 1)))))

/-! ## Reading a table -/

/-- Read a `uint32_t` into an uninitialised local. -/
def readU32 (uninit : Uninit) (file : Bytes) (s : FileStream) : UInt32 × FileStream :=
  let (buf, s) := s.readInto file (u32Bytes uninit.u32)
  (toU32 buf, s)

/-- Read a `uint64_t` into an uninitialised local. -/
def readU64 (uninit : Uninit) (file : Bytes) (s : FileStream) : UInt64 × FileStream :=
  let (buf, s) := s.readInto file (u64Bytes uninit.u64)
  (toU64 buf, s)

/-- Read `size` bytes into a string of as many NUL bytes. -/
def readString (file : Bytes) (s : FileStream) (size : UInt32) : Bytes × FileStream :=
  s.readInto file (List.replicate size.toNat nul)

/-- Read what follows the key of an entry: value, version, timestamp and
deletion flag. -/
def readData (uninit : Uninit) (file : Bytes) (s : FileStream) : DataEntry × FileStream :=
  let (valueSize, s) := readU32 uninit file s
  let (value, s) := readString file s valueSize
  -- the version of a default-constructed entry is 0
  let (version, s) := s.readInto file (u64Bytes 0)
  let (timestampMs, s) := readU64 uninit file s
  let (deletedFlag, s) := s.readInto file [uninit.u8]
  (⟨value, toU64 version, timestampMs.toInt64, decide (deletedFlag ≠ [0])⟩, s)

/-- Split a flattened key at its first `':'`. -/
def parseKey (keyStr : Bytes) : MultiLevelKey :=
  if colon ∈ keyStr then
    ⟨keyStr.takeWhile (fun b => b ≠ colon), (keyStr.dropWhile (fun b => b ≠ colon)).tail⟩
  else ⟨keyStr, []⟩

/-- The loop over the index entries of a file, `n` of them left. -/
def readIndex (uninit : Uninit) (file : Bytes) : ℕ → FileStream → List IndexEntry
  | 0, _ => []
  | n + 1, s =>
      let (keySize, s) := readU32 uninit file s
      let (keyStr, s) := readString file s keySize
      let (offset, s) := readU64 uninit file s
      let (size, s) := readU32 uninit file s
      ⟨parseKey keyStr, offset, size⟩ :: readIndex uninit file n s

/-- `SSTable::load_index`. -/
def loadIndex (t : SSTable) (uninit : Uninit) (dir : Directory) : Result Unit × SSTable :=
  match dir.find? t.filename with
  | none => (.error ⟨.storageError, "Failed to open SSTable file"⟩, t)
  | some file =>
      let s := FileStream.init.openFile true
      let (magic, s) := readU32 { uninit with u32 := uninit.magicNumber } file s
      let (version, s) := readU32 { uninit with u32 := uninit.version } file s
      -- the number of entries is read here and not used
      let (_entryCount, s) := readU32 uninit file s
      if magic ≠ magicNumber then
        (.error ⟨.storageError, "Invalid SSTable magic number"⟩, t)
      else if version ≠ formatVersion then
        (.error ⟨.storageError, "Unsupported SSTable version"⟩, t)
      else
        let s := s.seekgEnd file.length (-8)
        let (indexOffset, s) := readU64 uninit file s
        let s := s.seekg indexOffset.toInt64.toInt
        let (indexSize, s) := readU32 uninit file s
        let index := readIndex uninit file indexSize.toNat s
        (.ok (), { t with index := index, size := index.length })

/-- Load the index if none is in memory. -/
def ensureIndex (t : SSTable) (uninit : Uninit) (dir : Directory) : Result Unit × SSTable :=
  if t.index.isEmpty then t.loadIndex uninit dir else (.ok (), t)

/-- `SSTable::read` on a table whose index is in memory. -/
def lookup (t : SSTable) (uninit : Uninit) (dir : Directory) (key : MultiLevelKey) :
    Result DataEntry :=
  match t.index[partitionPoint (fun e => decide (e.key < key)) t.index]? with
  | none => .error ⟨.notFound, "Key not found in SSTable"⟩
  | some it =>
      if it.key ≠ key then .error ⟨.notFound, "Key not found in SSTable"⟩
      else
        match dir.find? t.filename with
        | none => .error ⟨.storageError, "Failed to open SSTable file for reading"⟩
        | some file =>
            let s := (FileStream.init.openFile true).seekg it.offset.toInt64.toInt
            let (keySize, s) := readU32 uninit file s
            let (readKey, s) := readString file s keySize
            -- the flattened keys are compared, not the pairs
            if readKey ≠ key.toString then .error ⟨.storageError, "Key mismatch in SSTable"⟩
            else
              let (entry, _) := readData uninit file s
              if entry.deleted then .error ⟨.notFound, "Key is marked as deleted"⟩
              else .ok entry

/-- `SSTable::read`. -/
def read (t : SSTable) (uninit : Uninit) (dir : Directory) (key : MultiLevelKey) :
    Result DataEntry × SSTable :=
  match t.ensureIndex uninit dir with
  | (.error f, t) => (.error f, t)
  | (.ok _, t) => (t.lookup uninit dir key, t)

/-- The entries read at the visited positions of the index, deletion marks
left out. -/
def readVisited (uninit : Uninit) (file : Bytes) :
    List IndexEntry → FileStream → List (MultiLevelKey × DataEntry)
  | [], _ => []
  | it :: visited, s =>
      let s := s.seekg it.offset.toInt64.toInt
      let (keySize, s) := readU32 uninit file s
      let s := s.seekgCur keySize.toNat
      let (entry, s) := readData uninit file s
      if entry.deleted then readVisited uninit file visited s
      else (it.key, entry) :: readVisited uninit file visited s

/-- `SSTable::range_scan` on a table whose index is in memory; `none` where the
iterator would leave the index. -/
def scan (t : SSTable) (uninit : Uninit) (dir : Directory) (query : RangeQuery) :
    Option (Result (List (MultiLevelKey × DataEntry))) :=
  match dir.find? t.filename with
  | none => some (.error ⟨.storageError, "Failed to open SSTable file for reading"⟩)
  | some file =>
      let startIt := partitionPoint (fun e => decide (e.key < query.startKey)) t.index
      let endIt := partitionPoint (fun e => !decide (query.endKey < e.key)) t.index
      let startIt :=
        if !query.inclusiveStart &&
            decide (t.index[startIt]?.map IndexEntry.key = some query.startKey) then
          startIt + 1
        else startIt
      let endIt :=
        if query.inclusiveEnd && decide (endIt ≠ 0) then
          let prevIt := endIt - 1
          if t.index[prevIt]?.map IndexEntry.key = some query.endKey then prevIt + 1 else endIt
        else endIt
      (scanFrom t.index endIt startIt query.limit.toNat).map fun visited =>
        .ok (readVisited uninit file visited (FileStream.init.openFile true))

/-- `SSTable::range_scan`. -/
def rangeScan (t : SSTable) (uninit : Uninit) (dir : Directory) (query : RangeQuery) :
    Option (Result (List (MultiLevelKey × DataEntry))) × SSTable :=
  match t.ensureIndex uninit dir with
  | (.error f, t) => (some (.error f), t)
  | (.ok _, t) => (t.scan uninit dir query, t)

end SSTable

end QcDatabase
