/-
# The checksum of a message in chunks

`Crc32c` and `Extend` read a table of 256 words, a byte at a time; `bitwiseCrc32c` states what
they are for, a bit at a time: the reflected CRC-32C of the whole message.

A byte step is eight bit steps, and `Extend` undoes the last inversion of the checksum that it
is given before it goes on.  So the checksum of the first chunk, extended by the others, is
that of the message, however it is cut (`foldl_extend_eq_bitwise`).
-/
import QcDatabase.Crc32cBursts

open ShiftRegister

namespace QcDatabase.Crc32c

/-! ## The table -/

/-- `crc32c_table` after `init_table`. -/
def crc32cTable : List UInt32 := (List.range 256).map fun i => tableEntry (UInt32.ofNat i)

theorem and_255_lt (x : UInt32) : (x &&& 0xFF).toNat < 256 := by
  rw [UInt32.toNat_and]
  exact Nat.lt_succ_of_le Nat.and_le_right

/-- Reading the table is computing the entry. -/
theorem getD_crc32cTable (x : UInt32) :
    crc32cTable.getD (x &&& 0xFF).toNat 0 = tableEntry (x &&& 0xFF) := by
  have hlt := and_255_lt x
  rw [crc32cTable, List.getD_eq_getElem _ _ (by rwa [List.length_map, List.length_range]),
    List.getElem_map, List.getElem_range, UInt32.ofNat_toNat]

/-- **A byte step looks the lowest byte of the register up in the table.** -/
theorem updateByte_eq_getD (crc : UInt32) (byte : UInt8) :
    updateByte crc byte
      = crc32cTable.getD ((crc ^^^ byte.toUInt32) &&& 0xFF).toNat 0 ^^^ (crc >>> 8) := by
  rw [getD_crc32cTable, updateByte]

/-! ## A bit at a time -/

/-- Add a bit of the message to the lowest bit of the register and shift it down; if the bit
that leaves is set, add the reflected polynomial. -/
def bitStep (crc : UInt32) (bit : Bool) : UInt32 :=
  let crc := crc ^^^ bit.toUInt32
  if crc &&& 1 ≠ 0 then (crc >>> 1) ^^^ 0x82F63B78 else crc >>> 1

/-- CRC-32C of a message, with initial value and final exclusive or `0xFFFFFFFF`. -/
def bitwiseCrc32c (data : Bytes) : UInt32 :=
  (messageBits data).foldl bitStep 0xFFFFFFFF ^^^ 0xFFFFFFFF

theorem toBitVec_bitStep (crc : UInt32) (bit : Bool) :
    (bitStep crc bit).toBitVec = feed polynomial crc.toBitVec bit := by
  have hbit : (crc ^^^ bit.toUInt32).toBitVec = crc.toBitVec ^^^ ofBit bit := by
    cases bit <;> rfl
  have hstep : bitStep crc bit = tableRound (crc ^^^ bit.toUInt32) := rfl
  rw [hstep, toBitVec_tableRound, hbit, feed]

theorem toBitVec_foldl_bitStep (crc : UInt32) (bits : List Bool) :
    (bits.foldl bitStep crc).toBitVec = run polynomial crc.toBitVec bits := by
  induction bits generalizing crc with
  | nil => rfl
  | cons bit bits ih =>
      rw [List.foldl_cons, ih, toBitVec_bitStep]
      rfl

/-- Bytes from the table and bits one by one leave the same register. -/
theorem foldl_updateByte_eq (crc : UInt32) (data : Bytes) :
    data.foldl updateByte crc = (messageBits data).foldl bitStep crc := by
  rw [← UInt32.toBitVec_inj, toBitVec_foldl_updateByte, toBitVec_foldl_bitStep]

/-! ## Chunks -/

/-- `Extend` takes up the register where it was left. -/
theorem extend_foldl_xor (register : UInt32) (data : Bytes) :
    extend (register ^^^ 0xFFFFFFFF) data = data.foldl updateByte register ^^^ 0xFFFFFFFF := by
  rw [extend, UInt32.xor_assoc, UInt32.xor_self, UInt32.xor_zero]

theorem foldl_extend_eq (register : UInt32) (chunks : List Bytes) :
    chunks.foldl extend (register ^^^ 0xFFFFFFFF)
      = chunks.flatten.foldl updateByte register ^^^ 0xFFFFFFFF := by
  induction chunks generalizing register with
  | nil => rfl
  | cons chunk chunks ih =>
      rw [List.foldl_cons, extend_foldl_xor, ih, List.flatten_cons, List.foldl_append]

/-- **The checksum of a message in chunks is its bit-at-a-time CRC-32C**, computed from the
table of `init_table`. -/
theorem foldl_extend_eq_bitwise (first : Bytes) (rest : List Bytes) :
    (∀ crc byte, updateByte crc byte
        = crc32cTable.getD ((crc ^^^ byte.toUInt32) &&& 0xFF).toNat 0 ^^^ (crc >>> 8)) ∧
      rest.foldl extend (crc32c first) = bitwiseCrc32c (first ++ rest.flatten) := by
  refine ⟨updateByte_eq_getD, ?_⟩
  rw [crc32c, foldl_extend_eq, ← List.foldl_append, foldl_updateByte_eq, bitwiseCrc32c]

-- the check value of CRC-32C once more, from three chunks
example : [[52, 53, 54], [55, 56, 57]].foldl extend (crc32c [49, 50, 51]) = 0xE3069283 := by
  decide +kernel

end QcDatabase.Crc32c
