/-
# Integers of fixed width

The integer types of the machine: `IntType.wrap` is what becomes of an integer that is
stored in one, and `IntType.Fits` says that this is the integer itself.

A computation with such integers is `Checked`: beside its value it says whether all
results that have to fit did so.  `IntType.store` is the result of an operation that must
not overflow and `IntType.convert` of one that may; a computation with results that fit is
the one with the integers themselves (`IntType.store_int64_bind`).

Division is that of the machine, which truncates.
-/
import Mathlib.Algebra.Order.Group.Int
import Mathlib.Algebra.Ring.Nat
import Mathlib.Data.Int.Init

/-! ## Integer types -/

/-- An integer type of the machine. -/
structure IntType where
  signed : Bool
  bits : ℕ
  deriving DecidableEq, Repr

namespace IntType

/-- `int64_t`. -/
def int64 : IntType := ⟨true, 64⟩

/-- `uint64_t`. -/
def uint64 : IntType := ⟨false, 64⟩

/-- The least integer of the type. -/
def least (t : IntType) : ℤ := if t.signed then -2 ^ (t.bits - 1) else 0

/-- The integers of the type end in front of this one. -/
def bound (t : IntType) : ℤ := if t.signed then 2 ^ (t.bits - 1) else 2 ^ t.bits

/-- The integer is one of the type. -/
def Fits (t : IntType) (x : ℤ) : Prop := t.least ≤ x ∧ x < t.bound

instance (t : IntType) (x : ℤ) : Decidable (t.Fits x) := inferInstanceAs (Decidable (_ ∧ _))

/-- What is left of an integer in a variable of the type. -/
def wrap (t : IntType) (x : ℤ) : ℤ := if t.signed then x.bmod (2 ^ t.bits) else x % 2 ^ t.bits

variable {x y : ℤ}

theorem fits_int64 : int64.Fits x ↔ -2 ^ 63 ≤ x ∧ x < 2 ^ 63 := Iff.rfl

theorem fits_uint64 : uint64.Fits x ↔ 0 ≤ x ∧ x < 2 ^ 64 := Iff.rfl

theorem wrap_int64 (h : int64.Fits x) : int64.wrap x = x := by
  rw [fits_int64] at h
  show x.bmod (2 ^ 64) = x
  exact Int.bmod_eq_of_le (by omega) (by omega)

theorem wrap_uint64 (h : uint64.Fits x) : uint64.wrap x = x := by
  rw [fits_uint64] at h
  exact Int.emod_eq_of_lt h.1 h.2

/-- A conversion to an unsigned type and back. -/
theorem wrap_int64_wrap_uint64 (h : int64.Fits x) : int64.wrap (uint64.wrap x) = x := by
  rw [fits_int64] at h
  show (x % 2 ^ 64).bmod (2 ^ 64) = x
  have hmod : (x % ((2 ^ 64 : ℕ) : ℤ)).bmod (2 ^ 64) = x.bmod (2 ^ 64) :=
    Int.emod_bmod x _
  exact hmod.trans (Int.bmod_eq_of_le (by omega) (by omega))

end IntType

/-! ## Computations -/

/-- A value, and whether all results on the way fitted. -/
structure Checked (α : Type) where
  value : α
  exact : Bool

namespace Checked

instance : Monad Checked where
  pure a := ⟨a, true⟩
  bind c f := ⟨(f c.value).value, c.exact && (f c.value).exact⟩

theorem pure_bind {α β : Type} (a : α) (f : α → Checked β) : (pure a >>= f) = f a := rfl

end Checked

namespace IntType

variable {t : IntType} {x : ℤ}

/-- The result of an operation that must not overflow. -/
def store (t : IntType) (x : ℤ) : Checked ℤ := ⟨t.wrap x, decide (t.Fits x)⟩

/-- The result of an operation or a conversion that is meant to wrap around. -/
def convert (t : IntType) (x : ℤ) : Checked ℤ := ⟨t.wrap x, true⟩

theorem store_int64 (h : int64.Fits x) : int64.store x = pure x := by
  rw [store, wrap_int64 h, decide_eq_true h]
  rfl

theorem store_uint64 (h : uint64.Fits x) : uint64.store x = pure x := by
  rw [store, wrap_uint64 h, decide_eq_true h]
  rfl

section

variable {α : Type} (f : ℤ → Checked α)

/-- A computation goes on with the integer itself, if that fits. -/
theorem store_int64_bind (h : int64.Fits x) : (int64.store x >>= f) = f x := by
  rw [store_int64 h, Checked.pure_bind]

theorem store_uint64_bind (h : uint64.Fits x) : (uint64.store x >>= f) = f x := by
  rw [store_uint64 h, Checked.pure_bind]

theorem convert_bind (t : IntType) (x : ℤ) : (t.convert x >>= f) = f (t.wrap x) := rfl

end

end IntType

/-! ## Truncated division -/

section

variable {x m a b : ℤ}

theorem tdiv_bounds_of_nonneg (hx : 0 ≤ x) (hm : 0 < m) :
    0 ≤ x.tdiv m ∧ x.tdiv m * m ≤ x ∧ x < x.tdiv m * m + m := by
  rw [Int.tdiv_eq_ediv_of_nonneg hx]
  have hlt := Int.emod_lt_of_pos x hm
  have hnonneg := Int.emod_nonneg x hm.ne'
  have hsum := Int.mul_ediv_add_emod x m
  rw [mul_comm] at hsum
  exact ⟨Int.ediv_nonneg hx hm.le, by omega, by omega⟩

theorem tdiv_bounds_of_neg (hx : x < 0) (hm : 0 < m) :
    x.tdiv m ≤ 0 ∧ x ≤ x.tdiv m * m ∧ x.tdiv m * m < x + m := by
  obtain ⟨hnonneg, hle, hlt⟩ := tdiv_bounds_of_nonneg (x := -x) (by omega) hm
  rw [Int.neg_tdiv, Int.neg_mul] at hle hlt
  rw [Int.neg_tdiv] at hnonneg
  exact ⟨by omega, by omega, by omega⟩

/-- The truncated mean of two integers of an interval lies in it. -/
theorem tdiv_two_mem (ha : a + a ≤ x) (hb : x ≤ b + b) : a ≤ x.tdiv 2 ∧ x.tdiv 2 ≤ b := by
  rcases le_or_gt 0 x with hx | hx
  · have := tdiv_bounds_of_nonneg hx (m := 2) (by decide)
    constructor <;> omega
  · have := tdiv_bounds_of_neg hx (m := 2) (by decide)
    constructor <;> omega

end

/-! ## Change of scale -/

/-- A fraction loses at most one unit on the way to a finer scale and back. -/
theorem scale_back_bounds (fraction : ℤ) {coarse fine : ℤ} (hcoarse : 0 < coarse)
    (hle : coarse ≤ fine) :
    fraction - 1 ≤ fraction * fine / coarse * coarse / fine ∧
      fraction * fine / coarse * coarse / fine ≤ fraction := by
  have hfine : 0 < fine := lt_of_lt_of_le hcoarse hle
  have hlow := Int.ediv_mul_le (fraction * fine) hcoarse.ne'
  have hhigh := Int.lt_ediv_add_one_mul_self (fraction * fine) hcoarse
  constructor
  · refine (Int.le_ediv_iff_mul_le hfine).mpr ?_
    rw [Int.sub_mul, Int.one_mul]
    rw [Int.add_mul, Int.one_mul] at hhigh
    omega
  · exact Int.ediv_le_of_le_mul hfine hlow
