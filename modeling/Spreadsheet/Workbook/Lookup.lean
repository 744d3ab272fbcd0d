import Spreadsheet.Reference.Coordinate
import Spreadsheet.Value.Number
import Spreadsheet.Workbook.Basic

/-!
# Looking up cells and ranges

A reference names a cell of a table, a range the cells of a rectangle. A reference that names no
cell has the value `#REF!`; a range in no table, or whose text is no range, has no values at all.
A range gives the numbers among the contents of its cells and skips everything else.
-/

namespace Spreadsheet.Workbook

/-- Content of the cell that a reference names. -/
def valueAt (w : Workbook) (reference : String) (table : TableId) : Except Fault Value :=
  match w.tableIndex? table with
  | none => .ok Sentinel.reference.value
  | some n => do
    match ← Reference.parse reference with
    | none => return Sentinel.reference.value
    | some at_ =>
      match w.cell? n at_.row at_.col with
      | none => return Sentinel.reference.value
      | some c => return c.content

/-- The numbers that some values count as, in order. -/
def numbersOf : List Value → Except Fault (List Number)
  | [] => .ok []
  | v :: rest => do
    match ← v.number? with
    | some n => return n :: (← numbersOf rest)
    | none => numbersOf rest

/-- The numbers among the contents of the cells of a range. -/
def numbersIn (w : Workbook) (range : String) (table : TableId) :
    Except Fault (Option (List Number)) :=
  match w.tableIndex? table with
  | none => .ok none
  | some n => do
    match ← Reference.expand range with
    | none => return none
    | some positions => return some (← numbersOf ((w.cellsAt n positions).map Cell.content))

end Spreadsheet.Workbook
