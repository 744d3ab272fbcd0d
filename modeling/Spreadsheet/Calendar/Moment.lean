import Spreadsheet.Calendar.Date
import Spreadsheet.Numeral.Binary64

/-!
# Moments

A moment is a date with a time of day to the microsecond, and possibly the offset of its clock
from universal time. A moment without offset has a serial number: days since 1899-12-30, the time
of day as a fraction.
-/

namespace Spreadsheet.Calendar

def microsPerSecond : Nat := 1000000

def microsPerDay : Nat := 86400 * microsPerSecond

/-- A date and a time of day. -/
structure Moment where
  date : Date
  /-- Microseconds since midnight. -/
  micros : Nat
  micros_lt : micros < microsPerDay
  /-- Offset of the clock from universal time, in seconds. -/
  offset : Option Int
deriving DecidableEq

/-- Hour, minute, second and microsecond. -/
def Moment.clock (t : Moment) : Nat × Nat × Nat × Nat :=
  let seconds := t.micros / microsPerSecond
  (seconds / 3600, seconds / 60 % 60, seconds % 60, t.micros % microsPerSecond)

/-- The moment at a time of day that exists. -/
def Moment.at? (date : Date) (hour minute second micro : Nat) (offset : Option Int) :
    Option Moment :=
  if hour < 24 ∧ minute < 60 ∧ second < 60 ∧ micro < microsPerSecond then
    let micros := ((hour * 60 + minute) * 60 + second) * microsPerSecond + micro
    if h : micros < microsPerDay then some ⟨date, micros, h, offset⟩ else none
  else none

/-- Days since 1899-12-30 as a double: the microseconds are made seconds, then days. -/
def Moment.serial? (t : Moment) : Option Float :=
  (Numeral.ofQuotient? (t.date.serial * microsPerDay + t.micros) microsPerSecond).map (· / 86400)

/-- An offset as `+HH:MM`, with seconds where it has any. -/
def offsetText (offset : Int) : String :=
  let n := offset.natAbs
  let seconds := n % 60
  (if offset < 0 then "-" else "+") ++ paddedText 2 (n / 3600) ++ ":" ++
    paddedText 2 (n / 60 % 60) ++ (if seconds = 0 then "" else ":" ++ paddedText 2 seconds)

/-- The moment as date, separator, time of day and offset. -/
def Moment.isoText (t : Moment) (separator : String) : String :=
  let (hour, minute, second, micro) := t.clock
  t.date.isoText ++ separator ++ paddedText 2 hour ++ ":" ++ paddedText 2 minute ++ ":" ++
    paddedText 2 second ++ (if micro = 0 then "" else "." ++ paddedText 6 micro) ++
    (t.offset.map offsetText).getD ""

end Spreadsheet.Calendar
