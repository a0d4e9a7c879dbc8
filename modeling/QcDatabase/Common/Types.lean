/-
# The types shared by every component (`include/cache/common/types.h`)

Keys, entries, statuses and results of the cache.  A `std::string` is a list of
bytes (`Bytes`), compared byte by byte as unsigned values; a `Timestamp` is the
signed 64-bit millisecond count of `std::chrono::milliseconds`; a
`Result<T>` is either the datum of an `OK` result or the status and message of
an error.

A clock reading is always an argument: `DataEntry::DataEntry()` reads the
system clock, so `DataEntry.default` takes the reading.
-/
import Mathlib.Data.Int.Notation
import Mathlib.Data.List.Lex
import Mathlib.Data.Prod.Lex
import Mathlib.Order.Lattice

namespace QcDatabase

/-! ## Byte strings -/

/-- A `std::string`: its bytes. -/
abbrev Bytes := List UInt8

/-- Bytes compare as unsigned values, as `std::char_traits<char>` does. -/
instance byteOrder : LinearOrder UInt8 where
  le_refl := UInt8.le_refl
  le_trans _ _ _ := UInt8.le_trans
  lt_iff_le_not_ge a b := by
    rw [UInt8.lt_iff_toNat_lt, UInt8.le_iff_toNat_le, UInt8.le_iff_toNat_le]
    omega
  le_antisymm _ _ := UInt8.le_antisymm
  le_total := UInt8.le_total
  toDecidableLE := inferInstance
  toDecidableEq := inferInstance
  toDecidableLT := inferInstance

/-- The byte `':'`. -/
def colon : UInt8 := 58

/-- The byte `'\0'`. -/
def nul : UInt8 := 0

/-- `NodeId`. -/
abbrev NodeId := Bytes

/-! ## Time points -/

/-- `std::chrono::system_clock::time_point`, in nanoseconds. -/
abbrev TimePoint := ℤ

/-- `std::chrono::milliseconds`. -/
abbrev Milliseconds := ℤ

/-- Nanoseconds in a millisecond. -/
def nanosPerMilli : ℤ := 1000000

/-- Nanoseconds in a second. -/
def nanosPerSecond : ℤ := 1000000000

/-- `std::chrono::duration_cast<std::chrono::milliseconds>` of a difference of time
points. -/
def toMilliseconds (difference : ℤ) : Milliseconds := difference.tdiv nanosPerMilli

/-! ## Multi-level keys -/

/-- `MultiLevelKey`. -/
structure MultiLevelKey where
  primaryKey : Bytes
  secondaryKey : Bytes
  deriving DecidableEq, Repr, Inhabited

namespace MultiLevelKey

/-- `MultiLevelKey::to_string`. -/
def toString (k : MultiLevelKey) : Bytes := k.primaryKey ++ [colon] ++ k.secondaryKey

/-- Keys are ordered by primary key, then by secondary key. -/
instance : LinearOrder MultiLevelKey :=
  LinearOrder.lift' (fun k => toLex (k.primaryKey, k.secondaryKey)) (by
    intro a b h
    cases a; cases b
    simpa [Prod.ext_iff] using h)

/-- `MultiLevelKey::operator<`. -/
theorem lt_iff (a b : MultiLevelKey) :
    a < b ↔ if a.primaryKey ≠ b.primaryKey then a.primaryKey < b.primaryKey
      else a.secondaryKey < b.secondaryKey := by
  show toLex (a.primaryKey, a.secondaryKey) < toLex (b.primaryKey, b.secondaryKey) ↔ _
  rw [Prod.Lex.toLex_lt_toLex]
  by_cases h : a.primaryKey = b.primaryKey <;> simp [h]

/-- Keys whose primary key contains no `':'`: the flattened form determines
them. -/
def ColonFree (k : MultiLevelKey) : Prop := colon ∉ k.primaryKey

instance (k : MultiLevelKey) : Decidable k.ColonFree :=
  inferInstanceAs (Decidable (colon ∉ k.primaryKey))

/-- Keys without a NUL byte in either part. -/
def NulFree (k : MultiLevelKey) : Prop := nul ∉ k.primaryKey ∧ nul ∉ k.secondaryKey

instance (k : MultiLevelKey) : Decidable k.NulFree :=
  inferInstanceAs (Decidable (_ ∧ _))

end MultiLevelKey

/-! ## Data entries -/

/-- `Timestamp`: `std::chrono::milliseconds`. -/
abbrev Timestamp := Int64

/-- `Version`. -/
abbrev Version := UInt64

/-- `DataEntry`. -/
structure DataEntry where
  value : Bytes
  version : Version
  timestamp : Timestamp
  deleted : Bool
  deriving DecidableEq, Repr

/-- `DataEntry::DataEntry()` at clock reading `now`. -/
def DataEntry.default (now : Timestamp) : DataEntry := ⟨[], 0, now, false⟩

/-! ## Results -/

/-- `Status`. -/
inductive Status where
  | ok
  | notFound
  | versionConflict
  | timeout
  | networkError
  | storageError
  | permissionDenied
  | invalidArgument
  | clusterError
  | alreadyExists
  | notImplemented
  | serviceUnavailable
  | unauthorized
  | forbidden
  | deadlockDetected
  | invalidState
  | transactionAborted
  | insufficientData
  deriving DecidableEq, Repr

/-- What `Result<T>::error` records. -/
structure Failure where
  status : Status
  errorMessage : String
  deriving DecidableEq, Repr

/-- `Result<T>`. -/
abbrev Result (α : Type) := Except Failure α

namespace Result

/-- `Result<T>::is_ok`. -/
def isOk {α : Type} : Result α → Bool
  | .ok _ => true
  | .error _ => false

@[simp] theorem isOk_ok {α : Type} (a : α) : isOk (.ok a : Result α) = true := rfl

@[simp] theorem isOk_error {α : Type} (f : Failure) : isOk (.error f : Result α) = false := rfl

end Result

/-! ## Queries and limits -/

/-- `RangeQuery`. -/
structure RangeQuery where
  startKey : MultiLevelKey
  endKey : MultiLevelKey
  limit : UInt32
  inclusiveStart : Bool
  inclusiveEnd : Bool
  deriving DecidableEq, Repr

namespace Config

/-- `config::MAX_KEY_SIZE`. -/
def maxKeySize : ℕ := 256

/-- `config::MAX_VALUE_SIZE`. -/
def maxValueSize : ℕ := 4 * 1024

/-- `config::MEMTABLE_SIZE_LIMIT`. -/
def memtableSizeLimit : ℕ := 64 * 1024 * 1024

end Config

end QcDatabase
