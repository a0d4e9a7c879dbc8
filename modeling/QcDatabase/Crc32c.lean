/-
# CRC-32C (`src/crc32c.cpp`)

The table-driven checksum of the write-ahead log.  `tableEntry i` is what
`init_table` stores at `crc32c_table[i]`; the table is read through this
function instead of being kept as state.
-/
import QcDatabase.Common.Types

namespace QcDatabase.Crc32c

/-- `kCrc32cPoly`. -/
def kCrc32cPoly : UInt32 := 0x82F63B78

/-- One round of the inner loop of `init_table`. -/
def tableRound (crc : UInt32) : UInt32 :=
  if crc &&& 1 ≠ 0 then (crc >>> 1) ^^^ kCrc32cPoly else crc >>> 1

/-- `crc32c_table[i]` after `init_table`. -/
def tableEntry (i : UInt32) : UInt32 := (List.range 8).foldl (fun crc _ => tableRound crc) i

/-- One iteration of the byte loop of `Crc32c` and `Extend`. -/
def updateByte (crc : UInt32) (byte : UInt8) : UInt32 :=
  tableEntry ((crc ^^^ byte.toUInt32) &&& 0xFF) ^^^ (crc >>> 8)

/-- `Crc32c(data, length)`. -/
def crc32c (data : Bytes) : UInt32 := data.foldl updateByte 0xFFFFFFFF ^^^ 0xFFFFFFFF

/-- `Extend(crc, data, length)`. -/
def extend (crc : UInt32) (data : Bytes) : UInt32 :=
  data.foldl updateByte (crc ^^^ 0xFFFFFFFF) ^^^ 0xFFFFFFFF

-- the check value of CRC-32C: the digits 1 to 9
example : crc32c [49, 50, 51, 52, 53, 54, 55, 56, 57] = 0xE3069283 := by decide +kernel

end QcDatabase.Crc32c
