/-
# Timestamps as text (`src/time/time_sync.cpp`)

`HybridLogicalClock::to_string` writes the physical time as a date and a time of day in
UTC, to the second, and the logical time behind it; `from_string` reads such a text back,
but takes the date and the time of day for local time.

So what comes back is the second of the timestamp, off by the difference of local time
from UTC (`fromString_toString`), and timestamps of one second share their text
(`toString_eq_iff`).
-/
import QcDatabase.Lib.Calendar
import QcDatabase.Lib.TextFields
import QcDatabase.Time.HybridClock

namespace QcDatabase

open CalendarDate FixedWidth

/-! ## Calendar time -/

/-- `std::tm`, with the year and the month as they are written. -/
structure Tm where
  date : CalendarDate
  hour : ℕ
  minute : ℕ
  second : ℕ
  deriving DecidableEq, Repr

/-- `std::tm tm = {}`. -/
def Tm.zero : Tm := ⟨⟨1900, 1, 0⟩, 0, 0, 0⟩

/-- `std::gmtime`. -/
def gmtime (time : ℤ) : Tm :=
  let rest := (time % 86400).toNat
  ⟨ofDays (time / 86400), rest / 3600, rest % 3600 / 60, rest % 60⟩

/-- The seconds from the epoch to a time in UTC. -/
def timegm (tm : Tm) : ℤ := tm.date.toDays * 86400 + tm.hour * 3600 + tm.minute * 60 + tm.second

/-- `std::mktime`, where local time is ahead of UTC by `zone`. -/
def mktime (zone : Tm → ℤ) (tm : Tm) : ℤ := timegm tm - zone tm

/-- `std::chrono::system_clock::to_time_t`. -/
def toTimeT (timestamp : TimePoint) : ℤ := timestamp.tdiv nanosPerSecond

/-- `std::chrono::system_clock::from_time_t`. -/
def fromTimeT (time : ℤ) : TimePoint := time * nanosPerSecond

/-- `"%Y%m%d_%H%M%S"`. -/
def clockFormat : List (FormatItem Tm) :=
  [.number 4 0 9999 (fun tm => tm.date.year.toNat)
      fun n tm => { tm with date := { tm.date with year := n } },
    .number 2 1 12 (fun tm => tm.date.month)
      fun n tm => { tm with date := { tm.date with month := n } },
    .number 2 1 31 (fun tm => tm.date.day)
      fun n tm => { tm with date := { tm.date with day := n } },
    .literal '_',
    .number 2 0 23 Tm.hour fun n tm => { tm with hour := n },
    .number 2 0 59 Tm.minute fun n tm => { tm with minute := n },
    .number 2 0 60 Tm.second fun n tm => { tm with second := n }]

/-- White space in the locale of C. -/
def isSpace (c : Char) : Bool := c = ' ' || (9 ≤ c.toNat && c.toNat ≤ 13)

/-- `std::put_time` with this format. -/
def putTime (tm : Tm) : List Char := writeItems clockFormat tm

/-- `std::get_time` with this format; white space in front is skipped. -/
def getTime (tm : Tm) (text : List Char) : Tm := readItems clockFormat tm (text.dropWhile isSpace)

/-! ## Conversions -/

/-- What `std::stoull` throws. -/
inductive ConversionError where
  | invalidArgument
  | outOfRange
  deriving DecidableEq, Repr

/-- `std::stoull`; a negative number wraps around, and what stands behind the digits is
ignored. -/
def stoull (str : List Char) : Except ConversionError UInt64 :=
  let text := str.dropWhile isSpace
  let negative := text.head? = some '-'
  let unsigned := if negative ∨ text.head? = some '+' then text.tail else text
  let digits := unsigned.takeWhile Char.isDigit
  let value := Nat.ofDigitChars 10 digits 0
  if digits = [] then .error .invalidArgument
  else if 2 ^ 64 ≤ value then .error .outOfRange
  else .ok (if negative then -UInt64.ofNat value else UInt64.ofNat value)

/-- What is in front of the last of these characters, and what is behind it. -/
def splitAtLast (c : Char) (text : List Char) : Option (List Char × List Char) :=
  match text.reverse.dropWhile (· ≠ c) with
  | [] => none
  | _ :: front => some (front.reverse, (text.reverse.takeWhile (· ≠ c)).reverse)

namespace HybridLogicalClock

/-- `HybridLogicalClock::to_string`. -/
def toString (h : HybridLogicalClock) : String :=
  String.ofList (putTime (gmtime (toTimeT h.physicalTime)) ++
    '_' :: Nat.toDigits 10 h.logicalTime.toNat)

/-- `HybridLogicalClock::from_string`, at clock reading `now` in a time zone. -/
def fromString (now : PhysicalTimestamp) (zone : Tm → ℤ) (str : String) :
    Except ConversionError HybridLogicalClock :=
  match splitAtLast '_' str.toList with
  | none => .ok ⟨now, 0⟩
  | some (timeStr, logicalStr) =>
      match stoull logicalStr with
      | .error failure => .error failure
      | .ok logicalTime =>
          .ok ⟨fromTimeT (mktime zone (getTime Tm.zero timeStr)), logicalTime⟩

end HybridLogicalClock

/-! ## Reading back -/

/-- Counting seconds in UTC undoes the split into fields. -/
theorem timegm_gmtime (time : ℤ) : timegm (gmtime time) = time := by
  have hdays := (valid_ofDays (time / 86400)).2
  rw [timegm, gmtime]
  dsimp only
  rw [hdays]
  omega

/-- A text without the character is behind the last one. -/
theorem splitAtLast_append {c : Char} {tail : List Char} (h : c ∉ tail) (front : List Char) :
    splitAtLast c (front ++ c :: tail) = some (front, tail) := by
  have hreverse : (front ++ c :: tail).reverse = tail.reverse ++ c :: front.reverse := by
    rw [List.reverse_append, List.reverse_cons, List.append_assoc, List.singleton_append]
  have htail : ∀ x ∈ tail.reverse, decide (x ≠ c) = true := by
    intro x hx
    rw [decide_eq_true_eq]
    rintro rfl
    exact h (List.mem_reverse.mp hx)
  have hdrop : (tail.reverse ++ c :: front.reverse).dropWhile (· ≠ c) = c :: front.reverse := by
    rw [List.dropWhile_append_of_pos htail, List.dropWhile_cons_of_neg (by simp)]
  have htake : (tail.reverse ++ c :: front.reverse).takeWhile (· ≠ c) = tail.reverse := by
    rw [List.takeWhile_append_of_pos htail, List.takeWhile_cons_of_neg (by simp), List.append_nil]
  rw [splitAtLast, hreverse, hdrop]
  dsimp only
  rw [htake, List.reverse_reverse, List.reverse_reverse]

/-- A digit is neither white space nor a sign. -/
theorem plain_of_isDigit {c : Char} (h : c.isDigit = true) :
    isSpace c = false ∧ c ≠ '-' ∧ c ≠ '+' := by
  have hlow : 48 ≤ c.toNat := (Char.isDigit_iff_toNat.mp h).1
  refine ⟨?_, ?_, ?_⟩
  · rw [isSpace, Bool.or_eq_false_iff, decide_eq_false_iff_not]
    refine ⟨?_, by simp; omega⟩
    rintro rfl
    exact absurd hlow (by decide)
  · rintro rfl
    exact absurd hlow (by decide)
  · rintro rfl
    exact absurd hlow (by decide)

theorem dropWhile_isSpace {text : List Char} (h : ∀ c ∈ text, isSpace c = false) :
    text.dropWhile isSpace = text := by
  cases text with
  | nil => rfl
  | cons c text => exact List.dropWhile_cons_of_neg (by rw [h c List.mem_cons_self]; decide)

/-- A number without a sign is read to its end. -/
theorem stoull_toDigits (n : UInt64) : stoull (Nat.toDigits 10 n.toNat) = .ok n := by
  have hdigits : ∀ c ∈ Nat.toDigits 10 n.toNat, c.isDigit = true := fun c hc =>
    Nat.isDigit_of_mem_toDigits (by decide) (by decide) hc
  obtain ⟨c, text, htext⟩ :=
    List.exists_cons_of_ne_nil (Nat.toDigits_ne_nil (n := n.toNat) (b := 10))
  have hvalue : Nat.ofDigitChars 10 (c :: text) 0 = n.toNat := by
    rw [← htext, Nat.ofDigitChars_ten_toDigits]
  rw [htext] at hdigits ⊢
  obtain ⟨-, hminus, hplus⟩ := plain_of_isDigit (hdigits c List.mem_cons_self)
  have hskip : (c :: text).dropWhile isSpace = c :: text :=
    dropWhile_isSpace fun c' hc' => (plain_of_isDigit (hdigits c' hc')).1
  have hall : (c :: text).takeWhile Char.isDigit = c :: text :=
    List.takeWhile_eq_self_iff.mpr hdigits
  have hsign : ¬ (some c = some '-' ∨ some c = some '+') := by
    rintro (heq | heq)
    · exact hminus (Option.some.inj heq)
    · exact hplus (Option.some.inj heq)
  rw [stoull, hskip, List.head?_cons]
  rw [if_neg hsign, hall, hvalue, if_neg (List.cons_ne_nil c text), if_neg (not_le.mpr n.toNat_lt),
    if_neg fun heq => hsign (Or.inl heq), UInt64.ofNat_toNat]

/-- The years that are shown with four digits, from 1970 to 9999. -/
def Shown (timestamp : ℤ) : Prop :=
  0 ≤ timestamp ∧ timestamp < 253402300800 * nanosPerSecond

instance (timestamp : ℤ) : Decidable (Shown timestamp) :=
  inferInstanceAs (Decidable (_ ∧ _))

theorem year_gmtime {time : ℤ} (hnonneg : 0 ≤ time) (hlt : time < 253402300800) :
    0 ≤ (gmtime time).date.year ∧ (gmtime time).date.year ≤ 9999 := by
  obtain ⟨hvalid, hdays⟩ := valid_ofDays (time / 86400)
  have hfirst := hvalid.toDays_lt_iff 1970
  have hlast := hvalid.toDays_lt_iff 10000
  rw [hdays, show CalendarDate.toDays ⟨1970, 1, 1⟩ = 0 from rfl] at hfirst
  rw [hdays, show CalendarDate.toDays ⟨10000, 1, 1⟩ = 2932897 by decide] at hlast
  show 0 ≤ (ofDays _).year ∧ (ofDays _).year ≤ 9999
  omega

/-- The fields of a time that is shown are in range. -/
theorem fits_gmtime {time : ℤ} (hnonneg : 0 ≤ time) (hlt : time < 253402300800) :
    ∀ item ∈ clockFormat, item.Fits (gmtime time) := by
  have hvalid := (valid_ofDays (time / 86400)).1
  obtain ⟨hyear, hyear_le⟩ := year_gmtime hnonneg hlt
  have hday : (gmtime time).date.day ≤ 31 := hvalid.day_le.trans (daysInMonth_le _ _)
  simp only [clockFormat, List.forall_mem_cons]
  refine ⟨⟨by decide, by decide, Nat.zero_le _, Int.toNat_le.mpr hyear_le⟩,
    ⟨by decide, by decide, hvalid.month_pos, hvalid.month_le⟩,
    ⟨by decide, by decide, hvalid.day_pos, hday⟩, trivial,
    ⟨by decide, by decide, Nat.zero_le _, ?_⟩, ⟨by decide, by decide, Nat.zero_le _, ?_⟩,
    ⟨by decide, by decide, Nat.zero_le _, ?_⟩, fun _ h => absurd h List.not_mem_nil⟩
  · show (time % 86400).toNat / 3600 ≤ 23
    omega
  · show (time % 86400).toNat % 3600 / 60 ≤ 59
    omega
  · show (time % 86400).toNat % 60 ≤ 60
    omega

theorem dropWhile_putTime (tm : Tm) : (putTime tm).dropWhile isSpace = putTime tm := by
  refine dropWhile_isSpace fun c hc => ?_
  rcases isDigit_or_literal_mem hc with hdigit | hliteral
  · exact (plain_of_isDigit hdigit).1
  · have hunderscore : c = '_' := by simpa [clockFormat] using hliteral
    rw [hunderscore]
    decide

/-- The format has all fields. -/
theorem copy_clockFormat (x y : Tm) :
    clockFormat.foldl (fun y item => item.copy x y) y
      = { x with date := { x.date with year := x.date.year.toNat } } :=
  rfl

/-- `std::get_time` undoes `std::put_time`. -/
theorem getTime_putTime {time : ℤ} (hnonneg : 0 ≤ time) (hlt : time < 253402300800) :
    getTime Tm.zero (putTime (gmtime time)) = gmtime time := by
  have hread := readItems_writeItems (fits_gmtime hnonneg hlt) Tm.zero []
  rw [List.append_nil, copy_clockFormat, Int.toNat_of_nonneg (year_gmtime hnonneg hlt).1] at hread
  rw [getTime, dropWhile_putTime]
  exact hread

/-- The second of a time that is shown. -/
theorem toTimeT_mem {timestamp : ℤ} (h : Shown timestamp) :
    0 ≤ toTimeT timestamp ∧ toTimeT timestamp < 253402300800 ∧
      toTimeT timestamp = timestamp / nanosPerSecond := by
  obtain ⟨hnonneg, hlt⟩ := h
  rw [toTimeT, Int.tdiv_eq_ediv_of_nonneg hnonneg]
  rw [nanosPerSecond] at *
  exact ⟨by omega, by omega, rfl⟩

namespace HybridLogicalClock

variable {h h' : HybridLogicalClock}

/-- **What comes back**: the second of the timestamp, off by the difference of local time. -/
theorem fromString_toString (hshown : Shown h.physicalTime) (now : PhysicalTimestamp)
    (zone : Tm → ℤ) :
    fromString now zone h.toString
      = .ok ⟨fromTimeT (toTimeT h.physicalTime - zone (gmtime (toTimeT h.physicalTime))),
          h.logicalTime⟩ := by
  obtain ⟨hnonneg, hlt, -⟩ := toTimeT_mem hshown
  rw [fromString, toString, String.toList_ofList, splitAtLast_append Nat.underscore_not_in_toDigits]
  dsimp only
  rw [stoull_toDigits]
  dsimp only
  rw [getTime_putTime hnonneg hlt, mktime, timegm_gmtime]

/-- Timestamps of one second share their text. -/
theorem toString_eq_iff (hshown : Shown h.physicalTime) (hshown' : Shown h'.physicalTime) :
    h.toString = h'.toString ↔
      toTimeT h.physicalTime = toTimeT h'.physicalTime ∧ h.logicalTime = h'.logicalTime := by
  constructor
  · intro htext
    have hback := fromString_toString hshown 0 fun _ => 0
    rw [htext, fromString_toString hshown' 0 fun _ => 0, Except.ok.injEq,
      HybridLogicalClock.mk.injEq] at hback
    have htime : (toTimeT h'.physicalTime - 0) * nanosPerSecond
        = (toTimeT h.physicalTime - 0) * nanosPerSecond := hback.1
    rw [nanosPerSecond] at htime
    exact ⟨by omega, hback.2.symm⟩
  · rintro ⟨htime, hlogical⟩
    rw [toString, toString, htime, hlogical]

theorem second_sub_eq_iff (t zone : ℤ) :
    (t / nanosPerSecond - zone) * nanosPerSecond = t ↔ nanosPerSecond ∣ t ∧ zone = 0 := by
  rw [nanosPerSecond]
  omega

/-- **When a timestamp survives the text**: it is a whole second, at which local time is UTC;
and which timestamps share its text. -/
theorem roundTrip_iff (h : HybridLogicalClock) (hshown : Shown h.physicalTime)
    (now : PhysicalTimestamp) (zone : Tm → ℤ) :
    (fromString now zone h.toString = .ok h ↔
      nanosPerSecond ∣ h.physicalTime ∧ zone (gmtime (toTimeT h.physicalTime)) = 0) ∧
      ∀ h' : HybridLogicalClock, Shown h'.physicalTime →
        (h.toString = h'.toString ↔
          toTimeT h.physicalTime = toTimeT h'.physicalTime ∧ h.logicalTime = h'.logicalTime) := by
  refine ⟨?_, fun h' => toString_eq_iff hshown⟩
  obtain ⟨physicalTime, logicalTime⟩ := h
  have hsecond := (toTimeT_mem hshown).2.2
  rw [fromString_toString hshown, Except.ok.injEq, HybridLogicalClock.mk.injEq,
    and_iff_left rfl]
  dsimp only at hsecond ⊢
  rw [fromTimeT, hsecond]
  exact second_sub_eq_iff physicalTime _

/-- A whole second in UTC. -/
theorem roundTrip_iff_sample :
    fromString 0 (fun _ => 0) (toString ⟨90061 * nanosPerSecond, 7⟩)
        = .ok ⟨90061 * nanosPerSecond, 7⟩ ∧
      toString ⟨90061 * nanosPerSecond, 7⟩ ≠ toString ⟨90061 * nanosPerSecond, 8⟩ := by
  have hshown : Shown (90061 * nanosPerSecond) := by decide
  obtain ⟨hback, hshared⟩ := roundTrip_iff ⟨_, 7⟩ hshown 0 fun _ => 0
  refine ⟨hback.mpr ⟨⟨90061, rfl⟩, rfl⟩, fun htext => ?_⟩
  exact absurd ((hshared ⟨_, 8⟩ hshown).mp htext).2 (by decide)

/-- Half a second is lost, in every time zone, and an hour where local time is ahead of UTC. -/
theorem not_roundTrip_sample :
    toString ⟨nanosPerSecond + 500000000, 0⟩ = toString ⟨nanosPerSecond, 0⟩ ∧
      (∀ zone, fromString 0 zone (toString ⟨nanosPerSecond + 500000000, 0⟩)
        ≠ .ok ⟨nanosPerSecond + 500000000, 0⟩) ∧
      fromString 0 (fun _ => 3600) (toString ⟨nanosPerSecond, 0⟩) ≠ .ok ⟨nanosPerSecond, 0⟩ := by
  have hhalf : Shown (nanosPerSecond + 500000000) := by decide
  have hwhole : Shown nanosPerSecond := by decide
  refine ⟨(toString_eq_iff hhalf hwhole).mpr ⟨by decide, rfl⟩, fun zone => ?_, ?_⟩
  · rw [fromString_toString hhalf, Ne, Except.ok.injEq, HybridLogicalClock.mk.injEq]
    rintro ⟨htime, -⟩
    have hdvd : nanosPerSecond ∣ nanosPerSecond + 500000000 := Dvd.intro_left _ htime
    exact absurd hdvd (by decide)
  · rw [fromString_toString hwhole, Ne, Except.ok.injEq, HybridLogicalClock.mk.injEq]
    rintro ⟨htime, -⟩
    exact absurd htime (by decide)

end HybridLogicalClock

end QcDatabase
