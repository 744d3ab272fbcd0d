import Spreadsheet.Format.Refusal
import Spreadsheet.Reference.Spelling
import Spreadsheet.Workbook.Lookup

/-!
# Lookups that fail

Most lookups return, one that finds nothing included. A lookup in a table that exists fails for a
row number with more digits than text may have, and that of a range also for a cell whose content
counts as a number that cannot be taken. There is no other way: see `lookups_return`.
-/

namespace Spreadsheet

open Numeral

/-- The number that a value counts as cannot be taken. -/
inductive Value.FailsAsNumber : Value → Prop
  /-- A whole number beyond the doubles. -/
  | int {n : Int} : doubleLimit ≤ n.natAbs → FailsAsNumber (.int n)
  | text {s : String} : LongNumeral s → FailsAsNumber (.text s)
  /-- A moment with an offset has no serial number. -/
  | moment {t : Calendar.Moment} : t.offset.isSome = true → FailsAsNumber (.moment t)

namespace Workbook

/-- A reference names a cell of a table. -/
def Names (w : Workbook) (reference : String) (table : TableId) (c : Cell) : Prop :=
  ∃ n at_, w.tableIndex? table = some n ∧ Reference.parse reference = .ok (some at_) ∧
    w.cell? n at_.row at_.col = some c

/-- A range covers a cell of a table. -/
def Covers (w : Workbook) (range : String) (table : TableId) (c : Cell) : Prop :=
  ∃ n positions, w.tableIndex? table = some n ∧ Reference.expand range = .ok (some positions) ∧
    ∃ p ∈ positions, w.cell? n p.1 p.2 = some c

end Workbook

end Spreadsheet
