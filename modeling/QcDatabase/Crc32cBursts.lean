/-
# What the checksum detects

`Crc32c` keeps a shift register of 32 bits and takes in each byte from its lowest
bit on (`messageBits`): the entry of the table is what eight shifts make of the
lowest byte of the register, and the other three bytes only move down
(`updateByte_eq_run`).  The highest bit of the polynomial is set, so messages that
differ in at most 32 bits in a row have different checksums
(`crc32c_ne_of_burst`).

Four bytes are enough to reach any checksum (`crc32c_append_fixup`).
-/
import QcDatabase.Crc32c
import QcDatabase.Lib.LittleEndian
import QcDatabase.Lib.ShiftRegister

open ShiftRegister LittleEndian

namespace QcDatabase.Crc32c

/-! ## The bits of a message -/

/-- The bits of a byte, lowest first. -/
def byteBits (byte : UInt8) : List Bool := (List.range 8).map byte.toBitVec.getLsbD

/-- The bits of a message in the order in which `Crc32c` consumes them. -/
def messageBits (data : Bytes) : List Bool := data.flatMap byteBits

theorem length_byteBits (byte : UInt8) : (byteBits byte).length = 8 := by
  rw [byteBits, List.length_map, List.length_range]

theorem length_messageBits (data : Bytes) : (messageBits data).length = 8 * data.length := by
  induction data with
  | nil => rfl
  | cons byte data ih =>
      rw [messageBits, List.flatMap_cons, List.length_append, length_byteBits, ← messageBits, ih,
        List.length_cons]
      omega

/-- The bits of a message are those of the number that it is in little-endian form. -/
theorem getD_messageBits (data : Bytes) (i : ℕ) :
    (messageBits data).getD i false = (leVal data).testBit i := by
  induction data generalizing i with
  | nil => rw [messageBits, List.flatMap_nil, List.getD_nil, leVal, Nat.zero_testBit]
  | cons byte data ih =>
      have hval : leVal (byte :: data) = 2 ^ 8 * leVal data + byte.toNat := by
        rw [leVal]
        omega
      rw [messageBits, List.flatMap_cons, ← messageBits, hval,
        Nat.testBit_two_pow_mul_add _ byte.toNat_lt]
      split_ifs with hi
      · have hbit : byte.toNat.testBit i = byte.toBitVec.getLsbD i := rfl
        rw [List.getD_append _ _ _ _ (by rw [length_byteBits]; exact hi), byteBits, hbit,
          List.getD_eq_getElem _ _ (by rw [List.length_map, List.length_range]; exact hi),
          List.getElem_map, List.getElem_range]
      · rw [List.getD_append_right _ _ _ _ (by rw [length_byteBits]; omega), length_byteBits, ih]

/-- Messages of one length are told apart by their bits. -/
theorem eq_of_messageBits_eq {data data' : Bytes} (hlen : data.length = data'.length)
    (h : messageBits data = messageBits data') : data = data' := by
  have hval : leVal data = leVal data' := by
    apply Nat.eq_of_testBit_eq
    intro i
    rw [← getD_messageBits, ← getD_messageBits, h]
  rw [← leBytes_leVal data, ← leBytes_leVal data', hlen, hval]

theorem ofBits_messageBits (data : Bytes) :
    (ofBits (messageBits data) : BitVec 32) = BitVec.ofNat 32 (leVal data) := by
  apply BitVec.eq_of_getLsbD_eq
  intro i hi
  rw [getLsbD_ofBits, getD_messageBits, BitVec.getLsbD_ofNat]

/-! ## The table -/

/-- `kCrc32cPoly` as the polynomial of a shift register. -/
def polynomial : BitVec 32 := kCrc32cPoly.toBitVec

theorem polynomial_top : polynomial.getLsbD (32 - 1) = true := by decide

/-- The test `crc & 1` asks for the lowest bit. -/
theorem and_one_ne_zero_iff (crc : UInt32) : crc &&& 1 ≠ 0 ↔ crc.toBitVec.getLsbD 0 = true := by
  have hword : (crc &&& 1).toBitVec = (BitVec.ofBool (crc.toBitVec.getLsbD 0)).setWidth 32 := by
    rw [UInt32.toBitVec_and]
    exact BitVec.and_one_eq_setWidth_ofBool_getLsbD
  rw [Ne, ← UInt32.toBitVec_inj, hword]
  cases crc.toBitVec.getLsbD 0 <;> decide

theorem toBitVec_tableRound (crc : UInt32) :
    (tableRound crc).toBitVec = shift polynomial crc.toBitVec := by
  rw [tableRound, shift]
  by_cases h : crc &&& 1 ≠ 0
  · rw [if_pos h, if_pos ((and_one_ne_zero_iff crc).mp h)]
    rfl
  · rw [if_neg h, if_neg fun hbit => h ((and_one_ne_zero_iff crc).mpr hbit)]
    rfl

/-- An entry of the table is made by eight shifts. -/
theorem toBitVec_tableEntry (i : UInt32) :
    (tableEntry i).toBitVec = shifts polynomial 8 i.toBitVec := by
  have hrounds : ∀ (l : List ℕ) (crc : UInt32),
      (l.foldl (fun crc _ => tableRound crc) crc).toBitVec
        = shifts polynomial l.length crc.toBitVec := by
    intro l
    induction l with
    | nil => exact fun crc => rfl
    | cons n l ih =>
        intro crc
        rw [List.foldl_cons, ih, toBitVec_tableRound]
        rfl
  exact hrounds (List.range 8) i

/-- A word is its lowest byte and the rest of it. -/
theorem eq_low_xor_high (x : BitVec 32) : x = (x &&& 255#32) ^^^ (x >>> 8) <<< 8 := by
  apply BitVec.eq_of_getLsbD_eq
  intro i hi
  have hmask : (255#32).getLsbD i = decide (i < 8) := by
    rw [BitVec.getLsbD_ofNat, show (255 : ℕ) = 2 ^ 8 - 1 by rfl, Nat.testBit_two_pow_sub_one]
    simp [hi]
  rw [BitVec.getLsbD_xor, BitVec.getLsbD_and, hmask, BitVec.getLsbD_shiftLeft,
    BitVec.getLsbD_ushiftRight]
  by_cases hlow : i < 8
  · simp [hlow]
  · simp [hlow, hi, show 8 + (i - 8) = i by omega]

/-- **A byte at a time** is eight bits one after the other. -/
theorem updateByte_eq_run (crc : UInt32) (byte : UInt8) :
    (updateByte crc byte).toBitVec = run polynomial crc.toBitVec (byteBits byte) := by
  have hbyte : (ofBits (byteBits byte) : BitVec 32) = byte.toUInt32.toBitVec := by
    have h := ofBits_messageBits [byte]
    rw [messageBits, List.flatMap_singleton, leVal, leVal] at h
    rw [h, Nat.mul_zero, Nat.add_zero]
    apply BitVec.eq_of_toNat_eq
    rw [BitVec.toNat_ofNat]
    exact Nat.mod_eq_of_lt (byte.toNat_lt.trans (by decide))
  -- the byte has no part in the bits that only move down
  have hhigh : (crc ^^^ byte.toUInt32).toBitVec >>> 8 = crc.toBitVec >>> 8 := by
    have hzero : byte.toUInt32.toBitVec >>> 8 = 0#32 := by
      apply BitVec.eq_of_toNat_eq
      have hlt := byte.toNat_lt
      show byte.toNat >>> 8 = 0
      rw [Nat.shiftRight_eq_div_pow]
      omega
    rw [UInt32.toBitVec_xor, BitVec.ushiftRight_xor_distrib, hzero, BitVec.xor_zero]
  have hentry : ((crc ^^^ byte.toUInt32) &&& 0xFF).toBitVec
      = (crc ^^^ byte.toUInt32).toBitVec &&& 255#32 := rfl
  have hshift : (crc >>> 8).toBitVec = crc.toBitVec >>> 8 := rfl
  rw [updateByte, UInt32.toBitVec_xor, toBitVec_tableEntry, hentry, hshift, ← hhigh,
    ← shifts_xor_shiftLeft, ← eq_low_xor_high,
    run_eq_shifts (by rw [length_byteBits]; decide), length_byteBits, hbyte, UInt32.toBitVec_xor]
  intro i hi
  rw [BitVec.getLsbD_ushiftRight, BitVec.getLsbD_of_ge _ _ (by omega)]

/-- The register behind a message. -/
theorem toBitVec_foldl_updateByte (crc : UInt32) (data : Bytes) :
    (data.foldl updateByte crc).toBitVec = run polynomial crc.toBitVec (messageBits data) := by
  induction data generalizing crc with
  | nil => rfl
  | cons byte data ih =>
      rw [List.foldl_cons, ih, updateByte_eq_run, ← run_append]
      rfl

/-! ## Bursts -/

/-- Equal checksums come from equal registers. -/
theorem crc32c_eq_iff {data data' : Bytes} :
    crc32c data = crc32c data' ↔ run polynomial (BitVec.allOnes 32) (messageBits data)
      = run polynomial (BitVec.allOnes 32) (messageBits data') := by
  have hregister : ∀ data : Bytes, (crc32c data).toBitVec
      = run polynomial (BitVec.allOnes 32) (messageBits data) ^^^ BitVec.allOnes 32 := by
    intro data
    rw [crc32c, UInt32.toBitVec_xor, toBitVec_foldl_updateByte]
    rfl
  rw [← UInt32.toBitVec_inj, hregister, hregister, BitVec.xor_left_inj]

/-- **A burst of at most 32 bits changes the checksum.** -/
theorem crc32c_ne_of_burst {data data' : Bytes}
    (h : Burst 32 (messageBits data) (messageBits data')) : crc32c data ≠ crc32c data' := by
  rw [Ne, crc32c_eq_iff]
  exact run_ne_of_burst polynomial_top le_rfl h _

/-- Another end of four bytes is a burst. -/
theorem burst_of_append (data : Bytes) {tail tail' : Bytes} (hlen : tail'.length = tail.length)
    (hfour : tail.length ≤ 4) (hne : tail ≠ tail') :
    Burst 32 (messageBits (data ++ tail)) (messageBits (data ++ tail')) where
  length_eq := by
    rw [length_messageBits, length_messageBits, List.length_append, List.length_append, hlen]
  ne h := by
    refine hne (List.append_cancel_left (eq_of_messageBits_eq ?_ h))
    rw [List.length_append, List.length_append, hlen]
  window := by
    refine ⟨(messageBits data).length, ?_⟩
    intro i hi
    have hbits : ∀ l : Bytes, messageBits (data ++ l) = messageBits data ++ messageBits l :=
      fun l => List.flatMap_append
    rw [hbits, hbits]
    by_cases hbefore : i < (messageBits data).length
    · rw [List.getElem?_append_left hbefore, List.getElem?_append_left hbefore]
    · have hend := length_messageBits tail
      have hend' := length_messageBits tail'
      rw [List.getElem?_append_right (by omega), List.getElem?_append_right (by omega),
        List.getElem?_eq_none (by omega), List.getElem?_eq_none (by omega)]

/-! ## Reaching a checksum -/

/-- The four bytes that give what follows `data` the checksum of `target`. -/
def fixup (data target : Bytes) : Bytes :=
  u32Bytes ⟨wordTo polynomial (run polynomial (BitVec.allOnes 32) (messageBits data))
    (run polynomial (BitVec.allOnes 32) (messageBits target))⟩

/-- **Four bytes more give a message any checksum.** -/
theorem crc32c_append_fixup (data target : Bytes) :
    crc32c (data ++ fixup data target) = crc32c target := by
  rw [crc32c_eq_iff, messageBits, List.flatMap_append, run_append]
  refine run_wordTo polynomial_top _ _ ?_ ?_
  · exact length_messageBits (fixup data target)
  · have hbits := ofBits_messageBits (fixup data target)
    rw [messageBits] at hbits
    rw [hbits, fixup, u32Bytes, leVal_leBytes]
    apply BitVec.eq_of_toNat_eq
    rw [BitVec.toNat_ofNat]
    exact (Nat.mod_mod _ _).trans (Nat.mod_eq_of_lt (BitVec.isLt _))

end QcDatabase.Crc32c
