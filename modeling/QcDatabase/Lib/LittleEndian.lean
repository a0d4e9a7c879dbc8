/-
# Little-endian byte strings

The bytes a fixed-width unsigned integer occupies in memory on a little-endian
machine (`leBytes n v`, least significant byte first) and the integer a byte
string stands for (`leVal`).  The two are inverse on byte strings of the right
length, in both directions, which is what a decoder of a binary format needs:
`leVal_leBytes` for what was written, `leBytes_leVal` for what is read.

`u32Bytes` / `u64Bytes` and `toU32` / `toU64` are the two widths in use.
-/
import Mathlib.Algebra.Group.Nat.Even
import Mathlib.Algebra.Order.Group.Nat

namespace LittleEndian

/-- The `n` low bytes of `v`, least significant first. -/
def leBytes : ℕ → ℕ → List UInt8
  | 0, _ => []
  | n + 1, v => UInt8.ofNat v :: leBytes n (v / 256)

/-- The integer a little-endian byte string stands for. -/
def leVal : List UInt8 → ℕ
  | [] => 0
  | b :: l => b.toNat + 256 * leVal l

@[simp] theorem length_leBytes (n v : ℕ) : (leBytes n v).length = n := by
  induction n generalizing v with
  | zero => rfl
  | succ n ih => rw [leBytes, List.length_cons, ih]

/-- Writing then reading loses what does not fit in `n` bytes. -/
theorem leVal_leBytes (n v : ℕ) : leVal (leBytes n v) = v % 256 ^ n := by
  induction n generalizing v with
  | zero => simp [leBytes, leVal, Nat.mod_one]
  | succ n ih =>
      have hlow : (UInt8.ofNat v).toNat = v % 256 := UInt8.toNat_ofNat'
      rw [leBytes, leVal, ih, hlow, pow_succ', Nat.mod_mul]

/-- Reading then writing gives the same bytes. -/
theorem leBytes_leVal (l : List UInt8) : leBytes l.length (leVal l) = l := by
  induction l with
  | nil => rfl
  | cons b l ih =>
      have hb := b.toNat_lt
      rw [List.length_cons, leBytes, leVal,
        show (b.toNat + 256 * leVal l) / 256 = leVal l by omega, ih]
      congr 1
      apply UInt8.toNat_inj.mp
      rw [UInt8.toNat_ofNat']
      omega

/-- `l.length` bytes stand for less than `256 ^ l.length`. -/
theorem leVal_lt (l : List UInt8) : leVal l < 256 ^ l.length := by
  have h := leVal_leBytes l.length (leVal l)
  rw [leBytes_leVal] at h
  rw [h]
  exact Nat.mod_lt _ (Nat.pow_pos (by omega))

/-! ## The widths of the file formats -/

/-- The four bytes of a `uint32_t`. -/
def u32Bytes (x : UInt32) : List UInt8 := leBytes 4 x.toNat

/-- The eight bytes of a `uint64_t`. -/
def u64Bytes (x : UInt64) : List UInt8 := leBytes 8 x.toNat

/-- The `uint32_t` in four bytes. -/
def toU32 (l : List UInt8) : UInt32 := UInt32.ofNat (leVal l)

/-- The `uint64_t` in eight bytes. -/
def toU64 (l : List UInt8) : UInt64 := UInt64.ofNat (leVal l)

@[simp] theorem length_u32Bytes (x : UInt32) : (u32Bytes x).length = 4 := length_leBytes 4 _

@[simp] theorem length_u64Bytes (x : UInt64) : (u64Bytes x).length = 8 := length_leBytes 8 _

@[simp] theorem toU32_u32Bytes (x : UInt32) : toU32 (u32Bytes x) = x := by
  have hx := x.toNat_lt
  rw [toU32, u32Bytes, leVal_leBytes, Nat.mod_eq_of_lt (by omega), UInt32.ofNat_toNat]

@[simp] theorem toU64_u64Bytes (x : UInt64) : toU64 (u64Bytes x) = x := by
  have hx := x.toNat_lt
  rw [toU64, u64Bytes, leVal_leBytes, Nat.mod_eq_of_lt (by omega), UInt64.ofNat_toNat]

theorem u32Bytes_toU32 {l : List UInt8} (hl : l.length = 4) : u32Bytes (toU32 l) = l := by
  have hlt := leVal_lt l
  rw [u32Bytes, toU32, UInt32.toNat_ofNat', Nat.mod_eq_of_lt (by rw [hl] at hlt; omega)]
  rw [← hl, leBytes_leVal]

theorem u64Bytes_toU64 {l : List UInt8} (hl : l.length = 8) : u64Bytes (toU64 l) = l := by
  have hlt := leVal_lt l
  rw [u64Bytes, toU64, UInt64.toNat_ofNat', Nat.mod_eq_of_lt (by rw [hl] at hlt; omega)]
  rw [← hl, leBytes_leVal]

theorem u64Bytes_inj {x y : UInt64} (h : u64Bytes x = u64Bytes y) : x = y := by
  rw [← toU64_u64Bytes x, h, toU64_u64Bytes]

/-- A field of 32 bits determines the number in it, if it has room for it. -/
theorem eq_of_u32Bytes_ofNat {n m : ℕ} (hn : n < 2 ^ 32) (hm : m < 2 ^ 32)
    (h : u32Bytes (UInt32.ofNat n) = u32Bytes (UInt32.ofNat m)) : n = m := by
  have hword : UInt32.ofNat n = UInt32.ofNat m := by
    rw [← toU32_u32Bytes (UInt32.ofNat n), h, toU32_u32Bytes]
  have hnat := congrArg UInt32.toNat hword
  rwa [UInt32.toNat_ofNat', UInt32.toNat_ofNat', Nat.mod_eq_of_lt hn, Nat.mod_eq_of_lt hm] at hnat

end LittleEndian
