/-
# Tables read back what was written

`SSTable.TableOf dir t m` says that the directory holds, under the name of `t`,
the file written for the map `m`, and that `t` has its index in memory.  A
successful `write` establishes it (`tableOf_write`) and so does `loadIndex` for
maps whose keys survive flattening (`tableOf_loadIndex`).  From it follow the
answers of `read` (`TableOf.read_eq`) and of `rangeScan` (`TableOf.rangeScan_eq`).

`located` lists the entries of a map with the offsets of their bytes; both the
entries and the index are images of it.
-/
import QcDatabase.Storage.SSTable

open FileStream LittleEndian OrderedSearch

namespace QcDatabase.SSTable

/-! ## Reading single fields -/

theorem readU32_of_at {file : Bytes} {s : FileStream} {x : UInt32} {rest : Bytes}
    (uninit : Uninit) (h : At file s (u32Bytes x ++ rest)) :
    ∃ s', readU32 uninit file s = (x, s') ∧ At file s' rest := by
  obtain ⟨s', hread, hat⟩ := h.readInto (u32Bytes uninit.u32) (by simp)
  exact ⟨s', by simp only [readU32, hread, toU32_u32Bytes], hat⟩

theorem readU64_of_at {file : Bytes} {s : FileStream} {x : UInt64} {rest : Bytes}
    (uninit : Uninit) (h : At file s (u64Bytes x ++ rest)) :
    ∃ s', readU64 uninit file s = (x, s') ∧ At file s' rest := by
  obtain ⟨s', hread, hat⟩ := h.readInto (u64Bytes uninit.u64) (by simp)
  exact ⟨s', by simp only [readU64, hread, toU64_u64Bytes], hat⟩

/-- A string whose length fits its size field. -/
theorem sizedBytes_of_lt {str : Bytes} (h : str.length < 2 ^ 32) :
    sizedBytes str = u32Bytes (UInt32.ofNat str.length) ++ str := by
  rw [sizedBytes, UInt32.toNat_ofNat', Nat.mod_eq_of_lt h, List.take_length]

/-- Reading a size and then the string of that size. -/
theorem readString_of_at {file : Bytes} {s : FileStream} {str rest : Bytes} (uninit : Uninit)
    (hlt : str.length < 2 ^ 32) (h : At file s (sizedBytes str ++ rest)) :
    ∃ size s₁ s', readU32 uninit file s = (size, s₁) ∧ size.toNat = str.length ∧
      At file s₁ (str ++ rest) ∧ readString file s₁ size = (str, s') ∧ At file s' rest := by
  rw [sizedBytes_of_lt hlt, List.append_assoc] at h
  obtain ⟨s₁, hsize, h₁⟩ := readU32_of_at uninit h
  have hnat : (UInt32.ofNat str.length).toNat = str.length := by
    rw [UInt32.toNat_ofNat', Nat.mod_eq_of_lt hlt]
  obtain ⟨s', hstr, h'⟩ := h₁.readInto
    (List.replicate (UInt32.ofNat str.length).toNat nul) (by simp [hnat])
  exact ⟨_, s₁, s', hsize, hnat, h₁, hstr, h'⟩

/-- The bytes of an entry behind its key. -/
def dataBytes (entry : DataEntry) : Bytes :=
  sizedBytes entry.value ++ (u64Bytes entry.version ++ (u64Bytes entry.timestamp.toUInt64
    ++ [if entry.deleted then 1 else 0]))

theorem entryBytes_eq (key : MultiLevelKey) (entry : DataEntry) :
    entryBytes key entry = sizedBytes key.toString ++ dataBytes entry := by
  simp only [entryBytes, dataBytes, List.append_assoc]

/-- **Every field of an entry is read back.** -/
theorem readData_of_at {file : Bytes} {s : FileStream} {entry : DataEntry} {rest : Bytes}
    (uninit : Uninit) (hlt : entry.value.length < 2 ^ 32)
    (h : At file s (dataBytes entry ++ rest)) :
    ∃ s', readData uninit file s = (entry, s') ∧ At file s' rest := by
  simp only [dataBytes, List.append_assoc] at h
  obtain ⟨size, s₁, s₂, hsize, -, -, hvalue, h₂⟩ := readString_of_at uninit hlt h
  obtain ⟨s₃, hversion, h₃⟩ := h₂.readInto (u64Bytes 0) (by simp)
  obtain ⟨s₄, htime, h₄⟩ := readU64_of_at uninit h₃
  obtain ⟨s₅, hflag, h₅⟩ := h₄.readInto [uninit.u8] (by simp)
  refine ⟨s₅, ?_, h₅⟩
  have hdel : decide ([if entry.deleted then (1 : UInt8) else 0] ≠ [0]) = entry.deleted := by
    cases entry.deleted <;> decide
  rw [readData, hsize]
  dsimp only
  rw [hvalue]
  dsimp only
  rw [hversion]
  dsimp only
  rw [htime]
  dsimp only
  rw [hflag, hdel, toU64_u64Bytes, Int64.toInt64_toUInt64]

/-- Offsets below `2^63` are the positions a stream seeks. -/
theorem toInt_offset {n : ℕ} (h : n < 2 ^ 63) : (UInt64.ofNat n).toInt64.toInt = n := by
  have hnat : (UInt64.ofNat n).toNat = n := by
    rw [UInt64.toNat_ofNat', Nat.mod_eq_of_lt (by omega)]
  rw [← Int64.toInt_toBitVec, UInt64.toBitVec_toInt64, BitVec.toInt_eq_toNat_of_lt]
  · rw [UInt64.toNat_toBitVec, hnat]
  · rw [UInt64.toNat_toBitVec, hnat]
    omega

/-! ## The layout of a file -/

/-- The entries of a map with the offsets of their bytes, the first of which
begin at `off`. -/
def located : ℕ → List (MultiLevelKey × DataEntry) → List (ℕ × MultiLevelKey × DataEntry)
  | _, [] => []
  | off, e :: data => (off, e) :: located (off + (entryBytes e.1 e.2).length) data

/-- The index entry of an entry at an offset. -/
def indexEntryOf (x : ℕ × MultiLevelKey × DataEntry) : IndexEntry :=
  ⟨x.2.1, UInt64.ofNat x.1, UInt32.ofNat (entryBytes x.2.1 x.2.2).length⟩

@[simp] theorem map_snd_located (off : ℕ) (data : List (MultiLevelKey × DataEntry)) :
    (located off data).map Prod.snd = data := by
  induction data generalizing off with
  | nil => rfl
  | cons e data ih => rw [located, List.map_cons, ih]

theorem length_located (off : ℕ) (data : List (MultiLevelKey × DataEntry)) :
    (located off data).length = data.length := by
  rw [← List.length_map Prod.snd, map_snd_located]

/-- The bytes of all entries. -/
def dataArea (data : List (MultiLevelKey × DataEntry)) : Bytes :=
  data.flatMap fun e => entryBytes e.1 e.2

/-- The bytes that the loop hands to the stream do not depend on `tellp`. -/
theorem fst_writeEntries (tellp : Bytes → UInt64) (data : List (MultiLevelKey × DataEntry))
    (file : Bytes) (index : List IndexEntry) :
    (writeEntries tellp data file index).1 = file ++ dataArea data ∧
      (writeEntries tellp data file index).2.length = index.length + data.length := by
  induction data generalizing file index with
  | nil => simp [writeEntries, dataArea]
  | cons e data ih =>
      obtain ⟨hfile, hlen⟩ := ih (file ++ entryBytes e.1 e.2)
        (index ++ [⟨e.1, tellp file, (tellp (file ++ entryBytes e.1 e.2) - tellp file).toUInt32⟩])
      rw [writeEntries]
      refine ⟨?_, ?_⟩
      · rw [hfile, dataArea, dataArea, List.flatMap_cons, List.append_assoc]
      · rw [hlen, List.length_append, List.length_singleton, List.length_cons]
        omega

/-- Whatever the stream does, the index has an entry for each entry. -/
theorem length_snd_layoutBy (tellp : Bytes → UInt64) (data : List (MultiLevelKey × DataEntry)) :
    (layoutBy tellp data).2.length = data.length := by
  have hlen := (fst_writeEntries tellp data (header data) []).2
  rw [List.length_nil, Nat.zero_add] at hlen
  exact hlen

/-- What the loop over the entries adds to the file and to the index. -/
theorem writeEntries_eq (data : List (MultiLevelKey × DataEntry)) (file : Bytes)
    (index : List IndexEntry) :
    writeEntries endOfFile data file index =
      (file ++ dataArea data, index ++ (located file.length data).map indexEntryOf) := by
  induction data generalizing file index with
  | nil => simp [writeEntries, located, dataArea]
  | cons e data ih =>
      obtain ⟨key, entry⟩ := e
      have hsize : (UInt64.ofNat (file.length + (entryBytes key entry).length)
          - UInt64.ofNat file.length).toUInt32 = UInt32.ofNat (entryBytes key entry).length := by
        rw [UInt64.ofNat_add, UInt64.add_comm, UInt64.add_sub_cancel, UInt64.toUInt32_ofNat']
      rw [writeEntries, endOfFile, endOfFile, ih, List.length_append, hsize, located, List.map_cons,
        dataArea, dataArea, List.flatMap_cons, List.append_assoc, List.append_assoc]
      rfl

theorem length_header (data : List (MultiLevelKey × DataEntry)) : (header data).length = 12 := by
  simp [header]

/-- The index written for a map. -/
def indexOf (data : List (MultiLevelKey × DataEntry)) : List IndexEntry :=
  (located 12 data).map indexEntryOf

/-- The file written for a map. -/
def fileOf (data : List (MultiLevelKey × DataEntry)) : Bytes :=
  header data ++ (dataArea data ++ (u32Bytes (UInt32.ofNat data.length)
    ++ ((indexOf data).flatMap indexEntryBytes
    ++ u64Bytes (UInt64.ofNat (12 + (dataArea data).length)))))

theorem layout_eq (data : List (MultiLevelKey × DataEntry)) :
    layout data = (fileOf data, indexOf data) := by
  have hlen : ((located 12 data).map indexEntryOf).length = data.length := by
    rw [List.length_map, length_located]
  rw [layout, layoutBy, writeEntries_eq]
  simp only [endOfFile, List.nil_append, List.length_append, length_header, hlen]
  simp only [fileOf, indexOf, List.append_assoc]

@[simp] theorem map_key_indexOf (data : List (MultiLevelKey × DataEntry)) :
    (indexOf data).map IndexEntry.key = data.map Prod.fst := by
  rw [indexOf, List.map_map]
  nth_rewrite 2 [← map_snd_located 12 data]
  rw [List.map_map]
  rfl

/-- The bytes of an entry stand at its offset. -/
theorem drop_of_mem_located {data : List (MultiLevelKey × DataEntry)} {pre : Bytes}
    (post : Bytes) {x : ℕ × MultiLevelKey × DataEntry} (hx : x ∈ located pre.length data) :
    ∃ rest, (pre ++ (dataArea data ++ post)).drop x.1 = entryBytes x.2.1 x.2.2 ++ rest := by
  induction data generalizing pre with
  | nil => simp [located] at hx
  | cons e data ih =>
      rw [located, List.mem_cons] at hx
      rcases hx with rfl | hx
      · exact ⟨dataArea data ++ post, by simp [dataArea]⟩
      · have hpre : pre.length + (entryBytes e.1 e.2).length
            = (pre ++ entryBytes e.1 e.2).length := by rw [List.length_append]
        rw [hpre] at hx
        obtain ⟨rest, hrest⟩ := ih hx
        refine ⟨rest, ?_⟩
        rw [← hrest]
        simp [dataArea]

/-- From its offset on, the file begins with the entry. -/
theorem drop_fileOf_of_mem_located {data : List (MultiLevelKey × DataEntry)}
    {x : ℕ × MultiLevelKey × DataEntry} (hx : x ∈ located 12 data) :
    ∃ rest, (fileOf data).drop x.1 = entryBytes x.2.1 x.2.2 ++ rest := by
  have h12 : 12 = (header data).length := (length_header data).symm
  rw [h12] at hx
  exact drop_of_mem_located (u32Bytes (UInt32.ofNat data.length)
    ++ ((indexOf data).flatMap indexEntryBytes
    ++ u64Bytes (UInt64.ofNat (12 + (dataArea data).length)))) hx

/-- An entry begins inside the file. -/
theorem offset_lt_of_mem_located {data : List (MultiLevelKey × DataEntry)}
    {x : ℕ × MultiLevelKey × DataEntry} (hx : x ∈ located 12 data) :
    x.1 < (fileOf data).length := by
  obtain ⟨rest, hrest⟩ := drop_fileOf_of_mem_located hx
  by_contra hge
  rw [List.drop_eq_nil_of_le (by omega)] at hrest
  have := congrArg List.length hrest
  simp [entryBytes] at this

/-! ## Maps whose sizes fit the format -/

/-- The maps the format has room for: the size fields of keys, values and the
number of entries have 32 bits, and a file offset is a signed 64-bit number. -/
structure Fits (data : List (MultiLevelKey × DataEntry)) : Prop where
  keySize : ∀ e ∈ data, e.1.toString.length < 2 ^ 32
  valueSize : ∀ e ∈ data, e.2.value.length < 2 ^ 32
  count : data.length < 2 ^ 32
  fileSize : (fileOf data).length < 2 ^ 63

instance (data : List (MultiLevelKey × DataEntry)) : Decidable (Fits data) :=
  decidable_of_iff ((∀ e ∈ data, e.1.toString.length < 2 ^ 32) ∧
      (∀ e ∈ data, e.2.value.length < 2 ^ 32) ∧ data.length < 2 ^ 32 ∧
      (fileOf data).length < 2 ^ 63)
    ⟨fun ⟨h₁, h₂, h₃, h₄⟩ => ⟨h₁, h₂, h₃, h₄⟩, fun ⟨h₁, h₂, h₃, h₄⟩ => ⟨h₁, h₂, h₃, h₄⟩⟩

/-- If a write of these entries returns `OK`, the file can be read back. -/
def ReadsBack (outcome : WriteOutcome) (data : List (MultiLevelKey × DataEntry)) : Prop :=
  match outcome with
  | .written => Fits data
  | .short _ _ => data = []
  | .notOpened => True
  | .threw _ _ => True

instance (outcome : WriteOutcome) (data : List (MultiLevelKey × DataEntry)) :
    Decidable (ReadsBack outcome data) :=
  match outcome with
  | .written => inferInstanceAs (Decidable (Fits data))
  | .short _ _ => inferInstanceAs (Decidable (data = []))
  | .notOpened => inferInstanceAs (Decidable True)
  | .threw _ _ => inferInstanceAs (Decidable True)

/-- A stream that seeks the offset of an entry is in front of its bytes. -/
theorem at_seekg_offset {data : List (MultiLevelKey × DataEntry)} (hfits : Fits data)
    {x : ℕ × MultiLevelKey × DataEntry} (hx : x ∈ located 12 data) {s : FileStream}
    (hs : s.Ready) :
    ∃ rest, At (fileOf data) (s.seekg (indexEntryOf x).offset.toInt64.toInt)
      (sizedBytes x.2.1.toString ++ (dataBytes x.2.2 ++ rest)) := by
  have hlt := offset_lt_of_mem_located hx
  have hsize := hfits.fileSize
  obtain ⟨rest, hrest⟩ := drop_fileOf_of_mem_located hx
  refine ⟨rest, ?_⟩
  rw [entryBytes_eq, List.append_assoc] at hrest
  rw [indexEntryOf, toInt_offset (by omega), ← hrest]
  exact hs.at_seekg _ _

/-! ## A table in memory and its file -/

/-- Table `t` has its index in memory, and the directory holds the file written
for `m` under its name. -/
structure TableOf (dir : Directory) (t : SSTable) (m : SortedMap MultiLevelKey DataEntry) :
    Prop where
  fits : Fits m.entries
  nonempty : m.entries ≠ []
  file : dir.find? t.filename = some (fileOf m.entries)
  index : t.index = indexOf m.entries

/-- A write that succeeds establishes the table. -/
theorem tableOf_write (t : SSTable) (dir : Directory) {m : SortedMap MultiLevelKey DataEntry}
    (hne : m.entries ≠ []) (hfits : Fits m.entries) :
    t.write dir m .written = (.ok (), ⟨t.filename, indexOf m.entries, m.size⟩,
        dir.insert t.filename (fileOf m.entries)) ∧
      TableOf (dir.insert t.filename (fileOf m.entries))
        ⟨t.filename, indexOf m.entries, m.size⟩ m := by
  constructor
  · rw [write, if_neg (by simpa using hne)]
    dsimp only
    rw [layout_eq]
  · exact ⟨hfits, hne, SortedMap.find?_insert_self _ _ _, rfl⟩

theorem TableOf.index_ne_nil {dir : Directory} {t : SSTable}
    {m : SortedMap MultiLevelKey DataEntry} (h : TableOf dir t m) : t.index.isEmpty = false := by
  have hlen : (indexOf m.entries).length = m.entries.length := by
    rw [indexOf, List.length_map, length_located]
  rw [h.index, List.isEmpty_eq_false_iff, ← List.length_pos_iff, hlen, List.length_pos_iff]
  exact h.nonempty

/-- The index in memory is not loaded again. -/
theorem TableOf.ensureIndex_eq {dir : Directory} {t : SSTable}
    {m : SortedMap MultiLevelKey DataEntry} (h : TableOf dir t m) (uninit : Uninit) :
    t.ensureIndex uninit dir = (.ok (), t) := by
  rw [ensureIndex, h.index_ne_nil]
  rfl

/-- The index lists the keys of the map. -/
theorem TableOf.map_key_index {dir : Directory} {t : SSTable}
    {m : SortedMap MultiLevelKey DataEntry} (h : TableOf dir t m) :
    t.index.map IndexEntry.key = m.entries.map Prod.fst := by
  rw [h.index, map_key_indexOf]

/-- The index is in strictly increasing key order. -/
theorem TableOf.index_sorted {dir : Directory} {t : SSTable}
    {m : SortedMap MultiLevelKey DataEntry} (h : TableOf dir t m) :
    t.index.Pairwise (fun a b => a.key < b.key) := by
  have hkeys : (t.index.map IndexEntry.key).Pairwise (· < ·) := by
    rw [h.map_key_index]
    exact m.keys_sorted
  exact List.pairwise_map.mp hkeys

/-! ## Point reads -/

/-- What `read` answers on a table of a map. -/
def answer (m : SortedMap MultiLevelKey DataEntry) (key : MultiLevelKey) : Result DataEntry :=
  match m.find? key with
  | none => .error ⟨.notFound, "Key not found in SSTable"⟩
  | some entry =>
      if entry.deleted then .error ⟨.notFound, "Key is marked as deleted"⟩
      else .ok entry

/-- The search finds the index entry of a key of the map. -/
theorem TableOf.lookup_of_mem {dir : Directory} {t : SSTable}
    {m : SortedMap MultiLevelKey DataEntry} (h : TableOf dir t m) (uninit : Uninit)
    {x : ℕ × MultiLevelKey × DataEntry} (hx : x ∈ located 12 m.entries) :
    t.lookup uninit dir x.2.1 =
      if x.2.2.deleted then .error ⟨.notFound, "Key is marked as deleted"⟩ else .ok x.2.2 := by
  have hit : t.index[partitionPoint (fun e => decide (e.key < x.2.1)) t.index]?
      = some (indexEntryOf x) := by
    have hidx : indexEntryOf x ∈ t.index := by
      rw [h.index]
      exact List.mem_map_of_mem hx
    rw [partitionPoint_lt_eq_lowerBound h.index_sorted]
    exact getElem?_lowerBound IndexEntry.key h.index_sorted hidx
  have hmem : x.2 ∈ m.entries := by
    rw [← map_snd_located 12 m.entries]
    exact List.mem_map_of_mem hx
  obtain ⟨rest, hat⟩ := at_seekg_offset h.fits hx (at_openFile (fileOf m.entries)).ready
  obtain ⟨size, s₁, s₂, hsize, -, -, hkey, h₂⟩ :=
    readString_of_at uninit (h.fits.keySize _ hmem) hat
  obtain ⟨s₃, hdata, -⟩ := readData_of_at uninit (h.fits.valueSize _ hmem) h₂
  rw [lookup, hit]
  dsimp only
  rw [if_neg (by simp [indexEntryOf]), h.file]
  dsimp only
  rw [hsize]
  dsimp only
  rw [hkey]
  dsimp only
  rw [if_neg (by simp), hdata]

/-- The search finds nothing for other keys. -/
theorem TableOf.lookup_of_notMem {dir : Directory} {t : SSTable}
    {m : SortedMap MultiLevelKey DataEntry} (h : TableOf dir t m) (uninit : Uninit)
    {key : MultiLevelKey} (hkey : key ∉ m.keys) :
    t.lookup uninit dir key = .error ⟨.notFound, "Key not found in SSTable"⟩ := by
  rw [lookup]
  cases hit : t.index[partitionPoint (fun e => decide (e.key < key)) t.index]? with
  | none => rfl
  | some it =>
      have hmem : it.key ∈ m.keys := by
        rw [SortedMap.keys, ← map_key_indexOf, ← h.index]
        exact List.mem_map_of_mem (List.mem_of_getElem? hit)
      have hne : it.key ≠ key := by
        rintro rfl
        exact hkey hmem
      dsimp only
      rw [if_pos hne]

/-- **Point reads of a table are lookups in its map**, and leave the table as it
is. -/
theorem TableOf.read_eq {dir : Directory} {t : SSTable} {m : SortedMap MultiLevelKey DataEntry}
    (h : TableOf dir t m) (uninit : Uninit) (key : MultiLevelKey) :
    t.read uninit dir key = (answer m key, t) := by
  rw [read, h.ensureIndex_eq uninit]
  dsimp only
  rw [answer]
  cases hf : m.find? key with
  | none => rw [h.lookup_of_notMem uninit ((m.find?_eq_none_iff key).mp hf)]
  | some entry =>
      have hmem : (key, entry) ∈ (located 12 m.entries).map Prod.snd := by
        rw [map_snd_located]
        exact m.mem_of_find?_eq_some hf
      obtain ⟨x, hx, heq⟩ := List.mem_map.mp hmem
      have hlookup := h.lookup_of_mem uninit hx
      rw [heq] at hlookup
      rw [hlookup]

/-- `read` returns live entries only. -/
theorem answer_eq_ok_iff (m : SortedMap MultiLevelKey DataEntry) (key : MultiLevelKey)
    (entry : DataEntry) : answer m key = .ok entry ↔ liveEntry m key = some entry := by
  rw [answer, liveEntry]
  cases h : m.find? key with
  | none => simp
  | some old =>
      rw [Option.filter_some]
      dsimp only
      cases hd : old.deleted <;> simp

/-! ## Loading the index -/

/-- **Keys without `':'` in the primary part survive flattening.** -/
theorem parseKey_toString {key : MultiLevelKey} (h : key.ColonFree) :
    parseKey key.toString = key := by
  have hmem : colon ∈ key.toString := by simp [MultiLevelKey.toString]
  have hall : ∀ b ∈ key.primaryKey, decide (b ≠ colon) = true := by
    intro b hb
    rw [decide_eq_true_eq]
    rintro rfl
    exact h hb
  have htake : key.toString.takeWhile (fun b => b ≠ colon) = key.primaryKey := by
    rw [MultiLevelKey.toString, List.append_assoc, List.takeWhile_append_of_pos hall]
    simp
  have hdrop : key.toString.dropWhile (fun b => b ≠ colon) = colon :: key.secondaryKey := by
    rw [MultiLevelKey.toString, List.append_assoc, List.dropWhile_append_of_pos hall]
    simp
  rw [parseKey, if_pos hmem, htake, hdrop, List.tail_cons]

/-- The loop over the index reads each triple and splits its key. -/
theorem readIndex_of_at {file : Bytes} (uninit : Uninit) {index : List IndexEntry} {rest : Bytes}
    (hkeys : ∀ e ∈ index, e.key.toString.length < 2 ^ 32) {s : FileStream}
    (h : At file s (index.flatMap indexEntryBytes ++ rest)) :
    readIndex uninit file index.length s
      = index.map fun e => { e with key := parseKey e.key.toString } := by
  induction index generalizing s with
  | nil => rfl
  | cons e index ih =>
      rw [List.flatMap_cons, indexEntryBytes] at h
      simp only [List.append_assoc] at h
      obtain ⟨size, s₁, s₂, hsize, -, -, hkey, h₂⟩ :=
        readString_of_at uninit (hkeys e List.mem_cons_self) h
      obtain ⟨s₃, hoffset, h₃⟩ := readU64_of_at uninit h₂
      obtain ⟨s₄, hsz, h₄⟩ := readU32_of_at uninit h₃
      rw [List.length_cons, readIndex, hsize]
      dsimp only
      rw [hkey]
      dsimp only
      rw [hoffset]
      dsimp only
      rw [hsz]
      dsimp only
      rw [ih (fun e' he' => hkeys e' (List.mem_cons_of_mem _ he')) h₄, List.map_cons]

/-- A stream that seeks eight bytes before the end is in front of the offset of
the index. -/
theorem at_seekgEnd (data : List (MultiLevelKey × DataEntry)) {s : FileStream} (hs : s.Ready) :
    At (fileOf data) (s.seekgEnd (fileOf data).length (-8))
      (u64Bytes (UInt64.ofNat (12 + (dataArea data).length)) ++ []) := by
  set front := header data ++ (dataArea data ++ (u32Bytes
    (UInt32.ofNat data.length) ++ (indexOf data).flatMap indexEntryBytes)) with hfront
  have hlen : (fileOf data).length = front.length + 8 := by
    simp only [hfront, fileOf, List.length_append, length_u64Bytes]
    omega
  have hseek : s.seekgEnd (fileOf data).length (-8) = s.seekg (front.length : ℕ) := by
    rw [seekgEnd, hlen]
    congr 1
    omega
  have h := hs.at_seekg (fileOf data) front.length
  rw [hseek, List.append_nil]
  refine ⟨h.ready, h.drop_eq.trans ?_⟩
  simp only [hfront, fileOf, ← List.append_assoc]
  exact List.drop_left

/-- A stream that seeks the offset of the index is in front of the index. -/
theorem at_seekg_index {data : List (MultiLevelKey × DataEntry)} (hfits : Fits data)
    {s : FileStream} (hs : s.Ready) :
    At (fileOf data) (s.seekg (UInt64.ofNat (12 + (dataArea data).length)).toInt64.toInt)
      (u32Bytes (UInt32.ofNat data.length) ++ ((indexOf data).flatMap indexEntryBytes
        ++ u64Bytes (UInt64.ofNat (12 + (dataArea data).length)))) := by
  have hsize := hfits.fileSize
  have hlt : 12 + (dataArea data).length < 2 ^ 63 := by
    have hle : 12 + (dataArea data).length ≤ (fileOf data).length := by
      simp only [fileOf, List.length_append, length_header]
      omega
    omega
  have h := hs.at_seekg (fileOf data) (12 + (dataArea data).length)
  rw [toInt_offset hlt]
  refine ⟨h.ready, h.drop_eq.trans ?_⟩
  rw [fileOf, ← List.append_assoc, List.drop_left' (by rw [List.length_append, length_header])]

/-- The sizes of the keys in an index fit their fields. -/
theorem Fits.indexKeySize {data : List (MultiLevelKey × DataEntry)} (hfits : Fits data) :
    ∀ e ∈ indexOf data, e.key.toString.length < 2 ^ 32 := by
  intro e he
  have hmem : e.key ∈ data.map Prod.fst := by
    rw [← map_key_indexOf]
    exact List.mem_map_of_mem he
  obtain ⟨x, hx, hkey⟩ := List.mem_map.mp hmem
  rw [← hkey]
  exact hfits.keySize x hx

/-- Loading the index of a file of a map: every key is split again. -/
theorem loadIndex_eq (t : SSTable) (uninit : Uninit) {dir : Directory}
    {data : List (MultiLevelKey × DataEntry)} (hfits : Fits data)
    (hfile : dir.find? t.filename = some (fileOf data)) :
    t.loadIndex uninit dir = (.ok (), ⟨t.filename,
      (indexOf data).map fun e => { e with key := parseKey e.key.toString }, data.length⟩) := by
  have hhead := at_openFile (fileOf data)
  nth_rewrite 2 [fileOf] at hhead
  rw [header, List.append_assoc, List.append_assoc] at hhead
  -- the reads of the source, one after the other
  obtain ⟨s₁, hmagic, h₁⟩ := readU32_of_at { uninit with u32 := uninit.magicNumber } hhead
  obtain ⟨s₂, hversion, h₂⟩ := readU32_of_at { uninit with u32 := uninit.version } h₁
  obtain ⟨s₃, hcount, h₃⟩ := readU32_of_at uninit h₂
  obtain ⟨s₅, hoff, h₅⟩ := readU64_of_at uninit (at_seekgEnd data h₃.ready)
  obtain ⟨s₇, hn, h₇⟩ := readU32_of_at uninit (at_seekg_index hfits h₅.ready)
  have hindex := readIndex_of_at uninit hfits.indexKeySize h₇
  have hidxlen : (indexOf data).length = data.length := by
    rw [indexOf, List.length_map, length_located]
  have hnat : (UInt32.ofNat data.length).toNat = (indexOf data).length := by
    rw [UInt32.toNat_ofNat', Nat.mod_eq_of_lt hfits.count, hidxlen]
  rw [loadIndex, hfile]
  dsimp only
  rw [hmagic]
  dsimp only
  rw [hversion]
  dsimp only
  rw [hcount]
  dsimp only
  rw [if_neg (by simp), if_neg (by simp), hoff]
  dsimp only
  rw [hn]
  dsimp only
  rw [hnat, hindex, List.length_map, hidxlen]

/-- **A reloaded index is the written one**, for keys that survive
flattening. -/
theorem tableOf_loadIndex (t : SSTable) (uninit : Uninit) {dir : Directory}
    {m : SortedMap MultiLevelKey DataEntry} (hne : m.entries ≠ []) (hfits : Fits m.entries)
    (hcolon : ∀ key ∈ m.keys, key.ColonFree)
    (hfile : dir.find? t.filename = some (fileOf m.entries)) :
    t.loadIndex uninit dir = (.ok (), ⟨t.filename, indexOf m.entries, m.size⟩) ∧
      TableOf dir ⟨t.filename, indexOf m.entries, m.size⟩ m := by
  have hsame : (indexOf m.entries).map (fun e => { e with key := parseKey e.key.toString })
      = indexOf m.entries := by
    refine (List.map_congr_left ?_).trans (List.map_id _)
    intro e he
    have hmem : e.key ∈ m.keys := by
      rw [SortedMap.keys, ← map_key_indexOf]
      exact List.mem_map_of_mem he
    rw [parseKey_toString (hcolon _ hmem)]
    rfl
  refine ⟨?_, hfits, hne, hfile, rfl⟩
  rw [loadIndex_eq t uninit hfits hfile, hsame]
  rfl

/-! ## Scans -/

/-- The scan of a table visits the entries of its map. -/
theorem TableOf.readVisited_eq {m : SortedMap MultiLevelKey DataEntry} (hfits : Fits m.entries)
    (uninit : Uninit) {xs : List (ℕ × MultiLevelKey × DataEntry)}
    (hxs : ∀ x ∈ xs, x ∈ located 12 m.entries) {s : FileStream} (hs : s.Ready) :
    readVisited uninit (fileOf m.entries) (xs.map indexEntryOf) s
      = (xs.map Prod.snd).filter fun e => !e.2.deleted := by
  induction xs generalizing s with
  | nil => rfl
  | cons x xs ih =>
      have hx := hxs x List.mem_cons_self
      have hmem : x.2 ∈ m.entries := by
        rw [← map_snd_located 12 m.entries]
        exact List.mem_map_of_mem hx
      obtain ⟨rest, hat⟩ := at_seekg_offset hfits hx hs
      obtain ⟨size, s₁, s₂, hsize, hnat, h₁, -, -⟩ :=
        readString_of_at uninit (hfits.keySize _ hmem) hat
      -- skipping the key is seeking over as many bytes as it has
      have hskip : At (fileOf m.entries) (s₁.seekgCur size.toNat)
          (dataBytes x.2.2 ++ rest) := by
        have h := h₁.ready.at_seekg (fileOf m.entries) (s₁.pos + size.toNat)
        rw [seekgCur, ← Int.natCast_add]
        refine ⟨h.ready, h.drop_eq.trans ?_⟩
        rw [← List.drop_drop, h₁.drop_eq, hnat, List.drop_left]
      obtain ⟨s₃, hdata, h₃⟩ := readData_of_at uninit (hfits.valueSize _ hmem) hskip
      have htail := ih (fun y hy => hxs y (List.mem_cons_of_mem _ hy)) h₃.ready
      rw [List.map_cons, List.map_cons, readVisited, hsize]
      dsimp only
      rw [hdata]
      dsimp only
      rw [htail]
      cases hd : x.2.2.deleted with
      | false =>
          rw [if_neg (by simp), List.filter_cons_of_pos (by simp [hd])]
          rfl
      | true => rw [if_pos rfl, List.filter_cons_of_neg (by simp [hd])]

/-- The adjustment of the end iterator leaves it where it is. -/
theorem scanEnd_eq (inclusiveEnd : Bool) (index : List IndexEntry) (endKey : MultiLevelKey) (n : ℕ) :
    (if inclusiveEnd && decide (n ≠ 0) then
        if index[n - 1]?.map IndexEntry.key = some endKey then n - 1 + 1 else n
      else n) = n := by
  split_ifs with h₁ h₂
  · simp only [Bool.and_eq_true, decide_eq_true_eq] at h₁
    omega
  · rfl
  · rfl

/-- **Scans of a table walk over its map.** -/
theorem TableOf.rangeScan_walk {dir : Directory} {t : SSTable}
    {m : SortedMap MultiLevelKey DataEntry} (h : TableOf dir t m) (uninit : Uninit)
    (query : RangeQuery) :
    t.rangeScan uninit dir query = ((query.walk m.entries).map fun visited =>
      .ok (visited.filter fun e => !e.2.deleted), t) := by
  have hsorted := h.index_sorted
  have hindex : t.index = (located 12 m.entries).map indexEntryOf := h.index
  have hkeys : ∀ i : ℕ, t.index[i]?.map IndexEntry.key = m.entries[i]?.map Prod.fst := by
    intro i
    rw [← List.getElem?_map, ← List.getElem?_map, h.map_key_index]
  rw [rangeScan, h.ensureIndex_eq uninit]
  dsimp only
  rw [scan, h.file]
  dsimp only
  rw [partitionPoint_lt_eq_lowerBound hsorted, partitionPoint_not_lt_eq_upperBound hsorted,
    lowerBound_congr _ h.map_key_index, upperBound_congr _ h.map_key_index, scanEnd_eq, hkeys]
  change ((scanFrom t.index (upperBound Prod.fst m.entries query.endKey) (query.first m.entries)
    query.limit.toNat).map _, t) = _
  have hwalk : query.walk m.entries
      = (scanFrom (located 12 m.entries) (upperBound Prod.fst m.entries query.endKey)
          (query.first m.entries) query.limit.toNat).map (List.map Prod.snd) := by
    rw [← scanFrom_map, map_snd_located]
    rfl
  rw [hindex, scanFrom_map, hwalk]
  cases hvisited : scanFrom (located 12 m.entries) (upperBound Prod.fst m.entries query.endKey)
      (query.first m.entries) query.limit.toNat with
  | none => rfl
  | some xs =>
      simp only [Option.map_some]
      rw [TableOf.readVisited_eq h.fits uninit
        (fun x hx => List.mem_of_mem_drop ((prefix_of_scanFrom hvisited).subset hx))
        (at_openFile (fileOf m.entries)).ready]

/-- **Scans of a table are scans of its map**, for queries whose bounds are in
order. -/
theorem TableOf.rangeScan_eq {dir : Directory} {t : SSTable}
    {m : SortedMap MultiLevelKey DataEntry} (h : TableOf dir t m) (uninit : Uninit)
    (query : RangeQuery) (hle : query.startKey ≤ query.endKey) :
    t.rangeScan uninit dir query = (some (.ok (query.scanned m.entries)), t) := by
  rw [h.rangeScan_walk, query.walk_of_le _ hle]
  rfl

/-! ## Write, reload, read -/

/-- **A table that is written and reloaded is the map it was written from**: a
fresh object that loads the index has exactly the keys of the map, in increasing
order, and reads every live entry back whole. -/
theorem read_of_loadIndex_write (filename : String) (uninit : Uninit) (dir : Directory)
    (m : SortedMap MultiLevelKey DataEntry) (hne : m.entries ≠ []) (hfits : Fits m.entries)
    (hcolon : ∀ key ∈ m.keys, key.ColonFree) :
    let dir' := ((create filename).write dir m .written).2.2
    let fresh := ((create filename).loadIndex uninit dir').2
    ((create filename).write dir m .written).1 = .ok () ∧
      ((create filename).loadIndex uninit dir').1 = .ok () ∧
      fresh.index.map IndexEntry.key = m.keys ∧
      (fresh.index.map IndexEntry.key).Pairwise (· < ·) ∧
      ∀ key,
        (∀ entry, m.find? key = some entry → entry.deleted = false →
          (fresh.read uninit dir' key).1 = .ok entry) ∧
        ((∀ entry, m.find? key = some entry → entry.deleted = true) →
          ∃ message, (fresh.read uninit dir' key).1 = .error ⟨.notFound, message⟩) := by
  obtain ⟨hwrite, -⟩ := tableOf_write (create filename) dir hne hfits
  obtain ⟨hload, htable⟩ := tableOf_loadIndex (create filename) uninit hne hfits hcolon
    (SortedMap.find?_insert_self dir filename (fileOf m.entries))
  rw [create_filename] at hwrite hload htable
  rw [hwrite]
  dsimp only
  rw [hload]
  refine ⟨rfl, rfl, map_key_indexOf _, ?_, ?_⟩
  · exact List.pairwise_map.mpr htable.index_sorted
  · intro key
    rw [htable.read_eq uninit key]
    constructor
    · intro entry hfind hlive
      rw [answer, hfind]
      dsimp only
      rw [if_neg (by simp [hlive])]
    · intro hdead
      rw [answer]
      cases hfind : m.find? key with
      | none => exact ⟨_, rfl⟩
      | some entry =>
          dsimp only
          rw [if_pos (hdead entry hfind)]
          exact ⟨_, rfl⟩

/-- A map with a live key, whose secondary part contains `':'`, and a deleted
one. -/
def sampleMap : SortedMap MultiLevelKey DataEntry :=
  (SortedMap.empty.insert ⟨[97], [58, 99]⟩ ⟨[0, 1], 7, -3, false⟩).insert
    ⟨[98], []⟩ ⟨[], 0, 5, true⟩

theorem read_of_loadIndex_write_sampleMap :
    let dir' := ((create "a.sst").write SortedMap.empty sampleMap .written).2.2
    let fresh := ((create "a.sst").loadIndex ⟨0, 0, 0, 0, 0⟩ dir').2
    fresh.index.map IndexEntry.key = sampleMap.keys ∧
      (fresh.read ⟨0, 0, 0, 0, 0⟩ dir' ⟨[97], [58, 99]⟩).1 = .ok ⟨[0, 1], 7, -3, false⟩ ∧
      ∃ message, (fresh.read ⟨0, 0, 0, 0, 0⟩ dir' ⟨[98], []⟩).1 = .error ⟨.notFound, message⟩ := by
  have hlive : sampleMap.find? ⟨[97], [58, 99]⟩ = some ⟨[0, 1], 7, -3, false⟩ := by decide
  have hdead : sampleMap.find? ⟨[98], []⟩ = some ⟨[], 0, 5, true⟩ := by decide
  obtain ⟨-, -, hkeys, -, hread⟩ := read_of_loadIndex_write "a.sst" ⟨0, 0, 0, 0, 0⟩ SortedMap.empty
    sampleMap (by decide) (by decide +kernel) (by decide)
  refine ⟨hkeys, (hread _).1 _ hlive rfl, (hread _).2 ?_⟩
  intro entry hfind
  rw [hdead] at hfind
  rw [← Option.some.inj hfind]

end QcDatabase.SSTable
