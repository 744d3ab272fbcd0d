/-!
# Calendar dates

A date is a day of the Gregorian calendar, extended to all years 1 to 9999. It is held as its
number, counted from 0001-01-01 as day 1, so that adding days is adding numbers; `civil` and
`ofCivil?` convert to and from year, month and day. A spreadsheet counts days from 1899-12-30
instead: `serial` and `ofSerial?`.
-/

namespace Spreadsheet.Calendar

/-- The number of 9999-12-31. -/
def lastDay : Nat := 3652059

/-- A day from 0001-01-01 to 9999-12-31, by its number. -/
structure Date where
  day : Nat
  one_le_day : 1 ≤ day
  day_le : day ≤ lastDay
deriving DecidableEq

/-- 0001-01-01. -/
def Date.first : Date := ⟨1, by decide, by decide⟩

structure Civil where
  year : Nat
  month : Nat
  day : Nat
deriving DecidableEq, Repr

/-- Every fourth year is a leap year, except the centuries that 400 does not divide. -/
def isLeap (year : Nat) : Bool := year % 4 == 0 && (year % 100 != 0 || year % 400 == 0)

def daysInMonth (year month : Nat) : Nat :=
  match month with
  | 2 => if isLeap year then 29 else 28
  | 4 | 6 | 9 | 11 => 30
  | _ => 31

def daysBeforeYear (year : Nat) : Nat :=
  let y := year - 1
  y * 365 + y / 4 - y / 100 + y / 400

def daysBeforeMonth (year : Nat) : Nat → Nat
  | 0 => 0
  | 1 => 0
  | month + 1 => daysBeforeMonth year month + daysInMonth year month

/-- Number of a day given by year, month and day of the month. -/
def dayNumber (c : Civil) : Nat := daysBeforeYear c.year + daysBeforeMonth c.year c.month + c.day

/-- The civil date exists in the years 1 to 9999. -/
def Civil.Valid (c : Civil) : Prop :=
  1 ≤ c.year ∧ c.year ≤ 9999 ∧ 1 ≤ c.month ∧ c.month ≤ 12 ∧ 1 ≤ c.day ∧
    c.day ≤ daysInMonth c.year c.month

instance (c : Civil) : Decidable c.Valid := by unfold Civil.Valid; infer_instance

def Date.ofDay? (n : Int) : Option Date :=
  if h : 1 ≤ n ∧ n ≤ lastDay then some ⟨n.toNat, by omega, by omega⟩ else none

def Date.ofCivil? (c : Civil) : Option Date :=
  if c.Valid then Date.ofDay? (dayNumber c) else none

/-- Year of a day, with the number of the day in that year counted from 0. Years repeat in
cycles of 400, 100, 4 and 1 years, of which the last of a longer one has a day more. -/
def yearOfDay (day : Nat) : Nat × Nat :=
  let n := day - 1
  let n400 := n / 146097
  let r400 := n % 146097
  let n100 := min (r400 / 36524) 3
  let r100 := r400 - n100 * 36524
  let n4 := r100 / 1461
  let r4 := r100 % 1461
  let n1 := min (r4 / 365) 3
  (n400 * 400 + n100 * 100 + n4 * 4 + n1 + 1, r4 - n1 * 365)

/-- Month and day of the month of the day `rest` days after the first of `month`. -/
def monthOfDay (year rest : Nat) : Nat → Nat → Nat × Nat
  | 0, month => (month, rest + 1)
  | more + 1, month =>
    let length := daysInMonth year month
    if rest < length then (month, rest + 1)
    else monthOfDay year (rest - length) more (month + 1)

def Date.civil (d : Date) : Civil :=
  let (year, rest) := yearOfDay d.day
  let (month, day) := monthOfDay year rest 11 1
  ⟨year, month, day⟩

/-- The number of 1899-12-30, on which a spreadsheet's count of days is 0. -/
def epochDay : Int := 693594

/-- Days since 1899-12-30. -/
def Date.serial (d : Date) : Int := d.day - epochDay

def Date.ofSerial? (n : Int) : Option Date := Date.ofDay? (n + epochDay)

def Date.addDays? (d : Date) (n : Int) : Option Date := Date.ofDay? (d.day + n)

/-- Day of the week, from 0 for Monday. -/
def Date.weekday (d : Date) : Nat := (d.day + 6) % 7

def monthNames : List String :=
  ["January", "February", "March", "April", "May", "June", "July", "August", "September",
   "October", "November", "December"]

def weekdayNames : List String :=
  ["Monday", "Tuesday", "Wednesday", "Thursday", "Friday", "Saturday", "Sunday"]

def Date.monthName (d : Date) : String := monthNames.getD (d.civil.month - 1) ""

def Date.weekdayName (d : Date) : String := weekdayNames.getD d.weekday ""

/-- The first three letters of a name. -/
def abbreviation (name : String) : String := String.ofList (name.toList.take 3)

/-- A number with zeros in front up to the given width. -/
def paddedText (width n : Nat) : String :=
  let digits := Nat.toDigits 10 n
  String.ofList (List.replicate (width - digits.length) '0' ++ digits)

/-- The date as `YYYY-MM-DD`. -/
def Date.isoText (d : Date) : String :=
  let c := d.civil
  paddedText 4 c.year ++ "-" ++ paddedText 2 c.month ++ "-" ++ paddedText 2 c.day

end Spreadsheet.Calendar
