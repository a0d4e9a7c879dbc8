/-
# What a table file holds

The file of a table determines the records in it: the flattened keys and the
entries, in order (`records_of_fileOf`).  A key itself is not in the file, only
its flattened form.

`FileHolds dir name key entry` says that the file under a name is that of a
table with such a record.  A write that returns `OK` has left the whole file or
the beginning of it (`write_ok`), and the beginning of a file is the file of no
map (`not_fileHolds_of_shorter`).
-/
import QcDatabase.Storage.Flush

open LittleEndian

namespace QcDatabase

namespace SSTable

/-! ## A file determines its records -/

theorem sizedBytes_append_inj {s s' rest rest' : Bytes} (hs : s.length < 2 ^ 32)
    (hs' : s'.length < 2 ^ 32) (h : sizedBytes s ++ rest = sizedBytes s' ++ rest') :
    s = s' ∧ rest = rest' := by
  rw [sizedBytes_of_lt hs, sizedBytes_of_lt hs', List.append_assoc, List.append_assoc] at h
  obtain ⟨hfield, hrest⟩ := List.append_inj h (by rw [length_u32Bytes, length_u32Bytes])
  exact List.append_inj hrest (eq_of_u32Bytes_ofNat hs hs' hfield)

/-- The bytes of an entry show where they end, and what they are the bytes of. -/
theorem entryBytes_append_inj {key key' : MultiLevelKey} {entry entry' : DataEntry}
    {rest rest' : Bytes} (hkey : key.toString.length < 2 ^ 32)
    (hkey' : key'.toString.length < 2 ^ 32) (hvalue : entry.value.length < 2 ^ 32)
    (hvalue' : entry'.value.length < 2 ^ 32)
    (h : entryBytes key entry ++ rest = entryBytes key' entry' ++ rest') :
    key.toString = key'.toString ∧ entry = entry' ∧ rest = rest' := by
  rw [entryBytes_eq, entryBytes_eq, List.append_assoc, List.append_assoc] at h
  obtain ⟨hk, h⟩ := sizedBytes_append_inj hkey hkey' h
  simp only [dataBytes, List.append_assoc] at h
  obtain ⟨hv, h⟩ := sizedBytes_append_inj hvalue hvalue' h
  obtain ⟨hversion, h⟩ := List.append_inj h (by rw [length_u64Bytes, length_u64Bytes])
  obtain ⟨htime, h⟩ := List.append_inj h (by rw [length_u64Bytes, length_u64Bytes])
  obtain ⟨hflag, hrest⟩ := List.append_inj h rfl
  refine ⟨hk, ?_, hrest⟩
  obtain ⟨value, version, timestamp, deleted⟩ := entry
  obtain ⟨value', version', timestamp', deleted'⟩ := entry'
  have htimestamp : timestamp = timestamp' := by
    rw [← Int64.toInt64_toUInt64 timestamp, u64Bytes_inj htime, Int64.toInt64_toUInt64]
  have hdeleted : deleted = deleted' := by
    cases deleted <;> cases deleted' <;> simp_all
  rw [DataEntry.mk.injEq]
  exact ⟨hv, u64Bytes_inj hversion, htimestamp, hdeleted⟩

/-- The entries of a map with their keys flattened. -/
def records (data : List (MultiLevelKey × DataEntry)) : List (Bytes × DataEntry) :=
  data.map fun e => (e.1.toString, e.2)

theorem records_of_dataArea {data data' : List (MultiLevelKey × DataEntry)} {rest rest' : Bytes}
    (hlen : data.length = data'.length)
    (hdata : ∀ e ∈ data, e.1.toString.length < 2 ^ 32 ∧ e.2.value.length < 2 ^ 32)
    (hdata' : ∀ e ∈ data', e.1.toString.length < 2 ^ 32 ∧ e.2.value.length < 2 ^ 32)
    (h : dataArea data ++ rest = dataArea data' ++ rest') : records data = records data' := by
  induction data generalizing data' with
  | nil =>
      rw [List.length_nil, eq_comm, List.length_eq_zero_iff] at hlen
      rw [hlen]
  | cons e data ih =>
      rcases data' with _ | ⟨e', data'⟩
      · cases hlen
      · rw [List.forall_mem_cons] at hdata hdata'
        simp only [dataArea, List.flatMap_cons, List.append_assoc] at h
        obtain ⟨hkey, hentry, hrest⟩ :=
          entryBytes_append_inj hdata.1.1 hdata'.1.1 hdata.1.2 hdata'.1.2 h
        have htail := ih (Nat.succ.inj hlen) hdata.2 hdata'.2 hrest
        rw [records, records, List.map_cons, List.map_cons, hkey, hentry]
        exact congrArg _ htail

/-- **A file determines its records**, also where bytes follow it. -/
theorem records_of_fileOf {data data' : List (MultiLevelKey × DataEntry)} {rest : Bytes}
    (hfits : Fits data) (hfits' : Fits data') (h : fileOf data = fileOf data' ++ rest) :
    records data = records data' := by
  simp only [fileOf, List.append_assoc] at h
  obtain ⟨hheader, hrest⟩ := List.append_inj h (by rw [length_header, length_header])
  rw [header, header] at hheader
  have hcount := List.append_inj_right hheader rfl
  exact records_of_dataArea (eq_of_u32Bytes_ofNat hfits.count hfits'.count hcount)
    (fun e he => ⟨hfits.keySize e he, hfits.valueSize e he⟩)
    (fun e he => ⟨hfits'.keySize e he, hfits'.valueSize e he⟩) hrest

/-- Records with the same bytes have the same index in a file. -/
theorem indexBytes_congr {data data' : List (MultiLevelKey × DataEntry)}
    (h : records data = records data') (off : ℕ) :
    ((located off data).map indexEntryOf).flatMap indexEntryBytes
      = ((located off data').map indexEntryOf).flatMap indexEntryBytes := by
  induction data generalizing data' off with
  | nil =>
      rcases data' with _ | ⟨e', data'⟩
      · rfl
      · cases h
  | cons e data ih =>
      rcases data' with _ | ⟨e', data'⟩
      · cases h
      · rw [records, records, List.map_cons, List.map_cons, List.cons.injEq, Prod.mk.injEq] at h
        obtain ⟨⟨hkey, hentry⟩, htail⟩ := h
        have hbytes : entryBytes e.1 e.2 = entryBytes e'.1 e'.2 := by
          rw [entryBytes_eq, entryBytes_eq, hkey, hentry]
        rw [located, located, List.map_cons, List.map_cons, List.flatMap_cons, List.flatMap_cons,
          hbytes, ih htail]
        simp only [indexEntryBytes, indexEntryOf, hkey, hbytes]

theorem dataArea_congr {data data' : List (MultiLevelKey × DataEntry)}
    (h : records data = records data') : dataArea data = dataArea data' := by
  have hrecords : ∀ entries : List (MultiLevelKey × DataEntry),
      dataArea entries = (records entries).flatMap fun r => sizedBytes r.1 ++ dataBytes r.2 := by
    intro entries
    rw [records, List.flatMap_map]
    simp only [dataArea, entryBytes_eq]
  rw [hrecords, hrecords, h]

/-- **The records determine the file.** -/
theorem fileOf_congr {data data' : List (MultiLevelKey × DataEntry)}
    (h : records data = records data') : fileOf data = fileOf data' := by
  have hlen : data.length = data'.length := by
    have hmap := congrArg List.length h
    rwa [records, records, List.length_map, List.length_map] at hmap
  rw [fileOf, fileOf, header, header, indexOf, indexOf, hlen, dataArea_congr h, indexBytes_congr h]

/-- The file under `name` is that of a table with this entry under the flattened key. -/
def FileHolds (dir : Directory) (name : String) (key : MultiLevelKey) (entry : DataEntry) : Prop :=
  ∃ m : SortedMap MultiLevelKey DataEntry, Fits m.entries ∧
    dir.find? name = some (fileOf m.entries) ∧ (key.toString, entry) ∈ records m.entries

/-- What the file written for a map holds. -/
theorem fileHolds_iff_of_find? {dir : Directory} {name : String}
    {m : SortedMap MultiLevelKey DataEntry} (hfits : Fits m.entries)
    (hfile : dir.find? name = some (fileOf m.entries)) {key : MultiLevelKey} {entry : DataEntry} :
    FileHolds dir name key entry ↔ (key.toString, entry) ∈ records m.entries := by
  constructor
  · rintro ⟨m', hfits', hfile', hmem⟩
    rw [hfile] at hfile'
    have heq : fileOf m.entries = fileOf m'.entries ++ [] := by
      rw [List.append_nil]
      exact Option.some.inj hfile'
    rwa [records_of_fileOf hfits hfits' heq]
  · intro hmem
    exact ⟨m, hfits, hfile, hmem⟩

/-- **A file that ends early holds nothing**: it is the file of no map. -/
theorem not_fileHolds_of_shorter {dir : Directory} {name : String}
    {m : SortedMap MultiLevelKey DataEntry} (hfits : Fits m.entries) {file rest : Bytes}
    (hfile : dir.find? name = some file) (hfileOf : fileOf m.entries = file ++ rest)
    (hrest : rest ≠ []) {key : MultiLevelKey} {entry : DataEntry} :
    ¬ FileHolds dir name key entry := by
  rintro ⟨m', hfits', hfile', -⟩
  rw [hfile] at hfile'
  obtain rfl := Option.some.inj hfile'
  have hsame := fileOf_congr (records_of_fileOf hfits hfits' hfileOf)
  rw [hsame] at hfileOf
  exact hrest (List.append_right_eq_self.mp hfileOf.symm)

theorem fileHolds_congr {dir dir' : Directory} {name : String}
    (h : dir'.find? name = dir.find? name) {key : MultiLevelKey} {entry : DataEntry} :
    FileHolds dir' name key entry ↔ FileHolds dir name key entry := by
  rw [FileHolds, FileHolds, h]

theorem mem_records_of_find? {m : SortedMap MultiLevelKey DataEntry} {key : MultiLevelKey}
    {entry : DataEntry} (h : m.find? key = some entry) :
    (key.toString, entry) ∈ records m.entries :=
  List.mem_map.mpr ⟨(key, entry), m.mem_of_find?_eq_some h, rfl⟩

/-! ## Writes that report success -/

/-- A stream that takes all entries has the positions of one that does not fail. -/
theorem writeEntries_endOfTaken {taken : ℕ} {data : List (MultiLevelKey × DataEntry)}
    {file : Bytes} (h : file.length + (dataArea data).length ≤ taken) (index : List IndexEntry) :
    writeEntries (endOfTaken taken) data file index = writeEntries endOfFile data file index := by
  induction data generalizing file index with
  | nil => rfl
  | cons e data ih =>
      rw [dataArea, List.flatMap_cons, List.length_append] at h
      have hnext : (file ++ entryBytes e.1 e.2).length + (dataArea data).length ≤ taken := by
        rw [List.length_append, dataArea]
        omega
      have hfile : endOfTaken taken file = endOfFile file := if_pos (by omega)
      have hentry : endOfTaken taken (file ++ entryBytes e.1 e.2)
          = endOfFile (file ++ entryBytes e.1 e.2) := if_pos (by omega)
      rw [writeEntries, writeEntries, hfile, hentry]
      exact ih hnext _

theorem exists_rest_of_take {file : Bytes} {n : ℕ} (hn : n < file.length) :
    ∃ rest, file = file.take n ++ rest ∧ rest ≠ [] := by
  refine ⟨file.drop n, (List.take_append_drop n file).symm, ?_⟩
  rw [ne_eq, List.drop_eq_nil_iff]
  omega

/-- **What a failing stream leaves** is the beginning of the whole file. -/
theorem exists_rest_of_short (taken left : ℕ) (data : List (MultiLevelKey × DataEntry)) :
    let file := (layoutBy (endOfTaken taken) data).1
    ∃ rest, fileOf data = file.take (min taken (min left (file.length - 1))) ++ rest ∧
      rest ≠ [] := by
  intro file
  have hwhole : fileOf data = (layoutBy endOfFile data).1 := by
    rw [← layout, layout_eq]
  by_cases htaken : 12 + (dataArea data).length ≤ taken
  · -- the stream fails behind the entries, where every position is known
    have hentries : writeEntries (endOfTaken taken) data (header data) []
        = writeEntries endOfFile data (header data) [] :=
      writeEntries_endOfTaken (by rw [length_header]; exact htaken) []
    have hend : endOfTaken taken (writeEntries endOfFile data (header data) []).1
        = endOfFile (writeEntries endOfFile data (header data) []).1 := by
      refine if_pos ?_
      rw [(fst_writeEntries endOfFile data (header data) []).1, List.length_append, length_header]
      exact htaken
    have hfile : file = fileOf data := by
      rw [hwhole]
      show (layoutBy (endOfTaken taken) data).1 = _
      rw [layoutBy, layoutBy, hentries]
      dsimp only
      rw [hend]
    have hpos : 0 < (fileOf data).length := by
      rw [fileOf, List.length_append, length_header]
      omega
    rw [hfile]
    exact exists_rest_of_take (by omega)
  · -- what has been taken is part of the header and of the entries
    have htail : ∃ tail, file = (header data ++ dataArea data) ++ tail := by
      have hfirst := (fst_writeEntries (endOfTaken taken) data (header data) []).1
      refine ⟨u32Bytes (UInt32.ofNat (writeEntries (endOfTaken taken) data (header data) []).2.length)
        ++ ((writeEntries (endOfTaken taken) data (header data) []).2.flatMap indexEntryBytes
        ++ u64Bytes (endOfTaken taken (header data ++ dataArea data))), ?_⟩
      show (layoutBy (endOfTaken taken) data).1 = _
      rw [layoutBy, ← hfirst]
      dsimp only
      rw [List.append_assoc, List.append_assoc]
    obtain ⟨tail, hfile⟩ := htail
    have hn : min taken (min left (file.length - 1)) < (header data ++ dataArea data).length := by
      rw [List.length_append, length_header]
      omega
    generalize min taken (min left (file.length - 1)) = n at hn
    obtain ⟨rest, hrest, hne⟩ := exists_rest_of_take hn
    rw [hfile, List.take_append_of_le_length hn.le]
    refine ⟨rest ++ (u32Bytes (UInt32.ofNat data.length) ++ ((indexOf data).flatMap indexEntryBytes
      ++ u64Bytes (UInt64.ofNat (12 + (dataArea data).length)))), ?_, by simp [hne]⟩
    rw [← List.append_assoc, ← hrest, fileOf, List.append_assoc]

/-- The file that a write of these entries leaves when it returns `OK`: the whole file, or
the beginning of it. -/
def LeavesFile (outcome : WriteOutcome) (data : List (MultiLevelKey × DataEntry))
    (file : Bytes) : Prop :=
  (outcome = .written ∧ file = fileOf data) ∨
    (outcome ≠ .written ∧ ∃ rest, fileOf data = file ++ rest ∧ rest ≠ [])

theorem write_ok {t t' : SSTable} {dir dir' : Directory} {m : SortedMap MultiLevelKey DataEntry}
    {outcome : WriteOutcome} (h : t.write dir m outcome = (.ok (), t', dir')) :
    t'.filename = t.filename ∧
      ∃ file, dir' = dir.insert t.filename file ∧ LeavesFile outcome m.entries file := by
  rw [write.eq_def] at h
  split_ifs at h with hempty
  · cases h
  · cases outcome with
    | notOpened => cases h
    | threw what left => cases h
    | written =>
        dsimp only at h
        rw [layout_eq] at h
        obtain ⟨-, rfl, rfl⟩ := h
        exact ⟨rfl, _, rfl, Or.inl ⟨rfl, rfl⟩⟩
    | short taken left =>
        obtain ⟨rest, hrest, hne⟩ := exists_rest_of_short taken left m.entries
        dsimp only at h
        obtain ⟨-, rfl, rfl⟩ := h
        have hshort : WriteOutcome.short taken left ≠ .written := by
          intro h
          cases h
        exact ⟨rfl, _, rfl, Or.inr ⟨hshort, rest, hrest, hne⟩⟩

/-- What the file holds that a write has left. -/
theorem LeavesFile.fileHolds_iff {outcome : WriteOutcome} {m : SortedMap MultiLevelKey DataEntry}
    {file : Bytes} (h : LeavesFile outcome m.entries file) (hfits : Fits m.entries)
    {dir : Directory} {name : String} (hfile : dir.find? name = some file) {key : MultiLevelKey}
    {entry : DataEntry} :
    FileHolds dir name key entry ↔
      outcome = .written ∧ (key.toString, entry) ∈ records m.entries := by
  rcases h with ⟨hwritten, rfl⟩ | ⟨hshort, rest, hfileOf, hrest⟩
  · rw [fileHolds_iff_of_find? hfits hfile, and_iff_right hwritten]
  · exact iff_of_false (not_fileHolds_of_shorter hfits hfile hfileOf hrest) fun h => hshort h.1

end SSTable

end QcDatabase
