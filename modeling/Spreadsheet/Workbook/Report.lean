import Mathlib.Data.List.Forall2
import Spreadsheet.Workbook.Pass

/-!
# What a pass lists and reports

After a pass every cell with a formula stands in the listing with its position, and a warning is
among the events for each of them whose value is a sentinel. Both follow the order of the positions,
so the cells that a pass leaves determine them. The names of a position in a listing take the place
of extras; beside the names of the properties no other extra is touched.
-/

namespace Spreadsheet

namespace Cell

/-- No extra has the name of a property, on the wire or plain. -/
def ExtrasApart (c : Cell) : Prop :=
  ∀ e ∈ c.extras, ∀ name ∈ propertyNames, e.1 ≠ name.1 ∧ e.1 ≠ name.2

/-- A cell is resolved and has what was entered in another one. -/
structure ResolvedFrom (c entered : Cell) : Prop where
  value : c.value = entered.value
  format : c.format = entered.format
  extras : c.extras = entered.extras
  resolved : c.resolved = true
  resolvedValue : entered.value.isFormula = false → c.resolvedValue = entered.value

def positionNames : List String := ["table", "row", "col"]

def listedAt (c : Cell) (p : Nat × Nat × Nat) : FormulaCell :=
  { cell := { c with extras := c.extras.filter fun e => !positionNames.contains e.1 }
    table := p.1
    row := p.2.1
    col := p.2.2 }

/-- The entry of the cell at a position in a listing, where it has a formula. -/
def listed? (c : Cell) (p : Nat × Nat × Nat) : Option FormulaCell :=
  if c.value.isFormula then some (c.listedAt p) else none

/-- The cell has a formula whose value is a sentinel. -/
def Fails (c : Cell) : Prop := c.value.isFormula = true ∧ c.resolvedValue.isSentinel = true

end Cell

def FormulaCell.position (f : FormulaCell) : Nat × Nat × Nat := (f.table, f.row, f.col)

namespace Workbook

/-- No extra of a cell has the name of a property. -/
def ExtrasApart (w : Workbook) : Prop :=
  ∀ n row col c, w.cell? n row col = some c → c.ExtrasApart

/-- The lengths of the rows of each table. -/
def shape (w : Workbook) : List (List Nat) := w.map fun rows => rows.map List.length

/-- A listing has each cell with a formula once, in the order of a pass. -/
structure Lists (w : Workbook) (formulas : List FormulaCell) : Prop where
  ordered : formulas.Pairwise fun f g => Precedes f.position g.position
  mem_iff : ∀ f, f ∈ formulas ↔ ∃ p c, w.cell? p.1 p.2.1 p.2.2 = some c ∧
    c.value.isFormula = true ∧ f = c.listedAt p

end Workbook

end Spreadsheet
