import Mathlib.Logic.Function.Iterate
import Spreadsheet.Calendar.Date

/-!
# One day after another

The calendar without numbers: the day after the last day of a month is the first day of the next
month, and the day after the last day of a year the first day of the next year.
-/

namespace Spreadsheet.Calendar

def daysInYear (year : Nat) : Nat := if isLeap year then 366 else 365

namespace Civil

/-- The civil date exists in the calendar, in whichever year. -/
structure IsDay (c : Civil) : Prop where
  one_le_year : 1 ≤ c.year
  one_le_month : 1 ≤ c.month
  month_le : c.month ≤ 12
  one_le_day : 1 ≤ c.day
  day_le : c.day ≤ daysInMonth c.year c.month

def next (c : Civil) : Civil :=
  if c.day < daysInMonth c.year c.month then ⟨c.year, c.month, c.day + 1⟩
  else if c.month < 12 then ⟨c.year, c.month + 1, 1⟩
  else ⟨c.year + 1, 1, 1⟩

/-- The civil date is so many days after another one, or before it where the number is negative. -/
def IsDaysAfter (c : Civil) (n : Int) (start : Civil) : Prop :=
  next^[n.toNat] start = next^[(-n).toNat] c

/-- The first day of the month with an index, the first month of the year 0 having the index 0. -/
def firstOfMonth (index : Int) : Civil := ⟨(index.fdiv 12).toNat, (index.fmod 12).toNat + 1, 1⟩

end Civil

end Spreadsheet.Calendar
