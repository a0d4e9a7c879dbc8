/-
# Torn table files

A crash during a flush leaves a prefix of a table file, and `load_sstables` drops a file
whose `load_index` returns an error.  But nothing that `load_index` reads is checked,
except the magic number and the version in front: it takes whatever the last eight bytes
say for the offset of the index, and never compares the size of the index with the entry
count of the header.  So a prefix is refused only if it is cut within these two words, and
then only if the uninitialised variables do not hold what is missing of them
(`rejectsCut_iff`).
-/
import QcDatabase.Storage.SSTableFormat

open FileStream LittleEndian

namespace FileStream

/-! ## Reads that may be short -/

variable {s : FileStream}

/-- A read into a buffer replaces as much of it as there is to read. -/
theorem readInto_of_ready (hs : s.Ready) (file buf : List UInt8) : (s.readInto file buf).1
    = (file.drop s.pos).take buf.length ++ buf.drop (file.drop s.pos).length := by
  rw [readInto]
  rcases le_or_gt buf.length (file.drop s.pos).length with hle | hlt
  · rw [read_of_le hs hle]
    dsimp only
    rw [List.length_take, min_eq_left hle, List.drop_length,
      List.drop_eq_nil_of_le hle]
  · rw [read_of_short hs hlt]
    dsimp only
    rw [List.take_of_length_le hlt.le]

theorem readInto_of_not_good (hs : s.good = false) (file buf : List UInt8) :
    (s.readInto file buf).1 = buf := by
  rw [readInto, read, if_neg (by rw [hs]; exact Bool.false_ne_true)]
  rfl

theorem not_good_of_short {file buf : List UInt8} (hs : s.Ready)
    (hlt : (file.drop s.pos).length < buf.length) :
    (s.readInto file buf).2.good = false := by
  rw [readInto, read_of_short hs hlt]
  rfl

end FileStream

namespace QcDatabase.SSTable

/-! ## The header of a torn file -/

/-- The two words that `load_index` compares. -/
def checkedHeader : Bytes := u32Bytes magicNumber ++ u32Bytes formatVersion

theorem length_checkedHeader : checkedHeader.length = 8 := rfl

/-- What stands in the variables for these words before they are read. -/
def uninitHeader (uninit : Uninit) : Bytes :=
  u32Bytes uninit.magicNumber ++ u32Bytes uninit.version

theorem toU32_eq_iff {b : Bytes} (hb : b.length = 4) (x : UInt32) :
    toU32 b = x ↔ b = u32Bytes x := by
  constructor
  · rintro rfl
    exact (u32Bytes_toU32 hb).symm
  · rintro rfl
    exact toU32_u32Bytes x

/-- What `load_index` reads of the header: magic number and version. -/
def readHeader (uninit : Uninit) (file : Bytes) : UInt32 × UInt32 :=
  let (magic, s) := readU32 { uninit with u32 := uninit.magicNumber } file (init.openFile true)
  (magic, (readU32 { uninit with u32 := uninit.version } file s).1)

/-- `load_index` refuses a file only for one of the two words. -/
theorem loadIndex_error_iff {t : SSTable} {dir : Directory} {file : Bytes} (uninit : Uninit)
    (hfile : dir.find? t.filename = some file) :
    (∃ f, (t.loadIndex uninit dir).1 = .error f) ↔
      readHeader uninit file ≠ (magicNumber, formatVersion) := by
  rw [loadIndex, hfile, readHeader, Ne, Prod.mk.injEq]
  dsimp only
  split_ifs with hmagic hversion
  · exact iff_of_true ⟨_, rfl⟩ fun h => hmagic h.1
  · exact iff_of_true ⟨_, rfl⟩ fun h => hversion h.2
  · refine iff_of_false ?_ fun h => h ⟨not_not.mp hmagic, not_not.mp hversion⟩
    rintro ⟨f, hf⟩
    cases hf

/-- What is read of the two words: the first bytes of the file, and behind its end what
stood in the variables. -/
theorem readHeader_eq_iff (uninit : Uninit) (file : Bytes) :
    readHeader uninit file = (magicNumber, formatVersion) ↔
      file.take 8 ++ (uninitHeader uninit).drop file.length = checkedHeader := by
  have hopen := at_openFile file
  have hfirst := readInto_of_ready hopen.ready file (u32Bytes uninit.magicNumber)
  rw [hopen.drop_eq, length_u32Bytes] at hfirst
  -- it is enough to know the two buffers
  have hwords {b b' : Bytes} (hb : b.length = 4) (hb' : b'.length = 4) :
      (toU32 b = magicNumber ∧ toU32 b' = formatVersion) ↔ b ++ b' = checkedHeader := by
    rw [toU32_eq_iff hb, toU32_eq_iff hb', checkedHeader]
    constructor
    · rintro ⟨rfl, rfl⟩
      rfl
    · intro h
      exact List.append_inj h (by rw [hb, length_u32Bytes])
  rw [readHeader, Prod.mk.injEq]
  dsimp only [readU32]
  rcases le_or_gt 4 file.length with hle | hlt
  · have hat : At file (FileStream.init.openFile true) (file.take 4 ++ file.drop 4) :=
      ⟨hopen.ready, hopen.drop_eq.trans (List.take_append_drop 4 file).symm⟩
    have htake : (file.take 4).length = 4 := by rw [List.length_take, min_eq_left hle]
    obtain ⟨s, hread, hs⟩ := hat.readInto (u32Bytes uninit.magicNumber)
      (by rw [length_u32Bytes, htake])
    have hsecond := readInto_of_ready hs.ready file (u32Bytes uninit.version)
    rw [hs.drop_eq, length_u32Bytes, List.length_drop] at hsecond
    have hlen : ((file.drop 4).take 4 ++ (u32Bytes uninit.version).drop (file.length - 4)).length
        = 4 := by
      rw [List.length_append, List.length_take, List.length_drop, List.length_drop,
        length_u32Bytes]
      omega
    have hgone : (u32Bytes uninit.magicNumber).drop file.length = [] :=
      List.drop_eq_nil_of_le (by rw [length_u32Bytes]; exact hle)
    rw [hread]
    dsimp only
    rw [hsecond, hwords htake hlen, ← List.append_assoc, ← List.take_add, uninitHeader,
      List.drop_append, length_u32Bytes, hgone, List.nil_append]
  · have hbad := not_good_of_short hopen.ready
      (show _ < (u32Bytes uninit.magicNumber).length by
        rw [hopen.drop_eq, length_u32Bytes]; exact hlt)
    have hlen : (file.take 4 ++ (u32Bytes uninit.magicNumber).drop file.length).length = 4 := by
      rw [List.length_append, List.length_take, List.length_drop, length_u32Bytes]
      omega
    rw [hfirst, readInto_of_not_good hbad, hwords hlen (length_u32Bytes _),
      List.take_of_length_le hlt.le, List.take_of_length_le (by omega), uninitHeader,
      List.drop_append_of_le_length (by rw [length_u32Bytes]; exact hlt.le), List.append_assoc]

/-! ## Cut files -/

/-- A crash has left the first `n` bytes of a file. -/
def cutFile (dir : Directory) (name : String) (n : ℕ) : Directory :=
  match dir.find? name with
  | none => dir
  | some file => dir.insert name (file.take n)

/-- `load_index` returns an error for the first `n` bytes of the file that `write` produces
for the map. -/
def RejectsCut (t : SSTable) (uninit : Uninit) (dir : Directory)
    (m : SortedMap MultiLevelKey DataEntry) (n : ℕ) : Prop :=
  ∃ f, (t.loadIndex uninit (cutFile (t.write dir m .written).2.2 t.filename n)).1 = .error f

theorem checkedHeader_prefix (data : List (MultiLevelKey × DataEntry)) :
    checkedHeader <+: (layout data).1 := by
  rw [layout_eq, fileOf, header, checkedHeader, List.append_assoc]
  exact List.prefix_append _ _

/-- **When a torn table is refused**: it is cut within the magic number and the version,
and the variables for these do not hold the missing bytes already. -/
theorem rejectsCut_iff (t : SSTable) (uninit : Uninit) (dir : Directory)
    {m : SortedMap MultiLevelKey DataEntry} (hne : m.entries ≠ []) (n : ℕ) :
    t.RejectsCut uninit dir m n ↔ (uninitHeader uninit).drop n ≠ checkedHeader.drop n := by
  obtain ⟨rest, hrest⟩ := checkedHeader_prefix m.entries
  have hfile : (t.write dir m .written).2.2.find? t.filename = some (checkedHeader ++ rest) := by
    rw [write, if_neg (by simpa using hne), hrest]
    exact SortedMap.find?_insert_self _ _ _
  have hcut : (cutFile (t.write dir m .written).2.2 t.filename n).find? t.filename
      = some ((checkedHeader ++ rest).take n) := by
    rw [cutFile, hfile]
    exact SortedMap.find?_insert_self _ _ _
  rw [RejectsCut, loadIndex_error_iff uninit hcut, Ne, readHeader_eq_iff, Ne, not_iff_not]
  have htake : ((checkedHeader ++ rest).take n).take 8 = checkedHeader.take n := by
    rw [List.take_take, min_comm, ← List.take_take, ← length_checkedHeader, List.take_left]
  have hdrop : (uninitHeader uninit).drop ((checkedHeader ++ rest).take n).length
      = (uninitHeader uninit).drop n := by
    have hlen : (uninitHeader uninit).length = 8 := rfl
    rcases le_or_gt 8 n with hle | hlt
    · rw [List.drop_eq_nil_of_le (hlen.trans_le hle), List.drop_eq_nil_of_le]
      rw [hlen, List.length_take, List.length_append, length_checkedHeader]
      omega
    · rw [List.length_take, List.length_append, length_checkedHeader, min_eq_left (by omega)]
  rw [htake, hdrop]
  constructor
  · intro h
    exact List.append_cancel_left (h.trans (List.take_append_drop n checkedHeader).symm)
  · intro h
    rw [h, List.take_append_drop]

/-- A map with one entry, whose value ends like a table file. -/
def sampleMimic : SortedMap MultiLevelKey DataEntry :=
  SortedMap.empty.insert ⟨[97], []⟩ ⟨[8, 0, 0, 0, 0, 0, 0, 0], 1, 0, false⟩

theorem rejectsCut_sampleMimic :
    (create "a.sst").RejectsCut ⟨0, 0, 0, 0, 0⟩ SortedMap.empty sampleMimic 3 :=
  (rejectsCut_iff _ _ _ (by decide) 3).mpr (by decide)

/-- Cut behind the value, the file is loaded as a table with an index. -/
theorem not_rejectsCut_sampleMimic :
    let written := ((create "a.sst").write SortedMap.empty sampleMimic .written).2.2
    let loaded := (create "a.sst").loadIndex ⟨0, 0, 0, 0, 0⟩ (cutFile written "a.sst" 30)
    (written.find? "a.sst").map List.length = some 77 ∧
      loaded.1 = .ok () ∧ loaded.2.index = [⟨⟨[97], []⟩, 34359738376, 0⟩] ∧
      ¬ (create "a.sst").RejectsCut ⟨0, 0, 0, 0, 0⟩ SortedMap.empty sampleMimic 30 := by
  have hok : ((create "a.sst").loadIndex ⟨0, 0, 0, 0, 0⟩
      (cutFile ((create "a.sst").write SortedMap.empty sampleMimic .written).2.2 "a.sst" 30)).1
        = .ok () := by
    decide +kernel
  refine ⟨by decide +kernel, hok, by decide +kernel, ?_⟩
  rintro ⟨f, hf⟩
  cases hok.symm.trans hf

end QcDatabase.SSTable
