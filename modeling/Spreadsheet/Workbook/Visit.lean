import Spreadsheet.Formula.Dependency
import Spreadsheet.Workbook.Resolve

/-!
# Resolution in any order

Each cell of a workbook is resolved once, in an order that need not be that of the rows. What a cell
reads of another depends on whether that one was resolved before: then it is what was stored, else
the value that the formula is given on demand. Storing makes a number of a text that counts as one.
-/

namespace Spreadsheet

/-- A value counts as the same number and the same truth value once it is stored. -/
def Value.StoresFaithfully (v : Value) : Prop :=
  ∃ stored, v.numberForText = .ok stored ∧ stored.number? = v.number? ∧ stored.isTrue = v.isTrue

namespace Workbook

def Unresolved (w : Workbook) : Prop :=
  ∀ n row col c, w.cell? n row col = some c → c.resolved = false

/-- An order of positions that has every cell of a workbook once: the index of the table, the row
and the column. -/
structure Visits (w : Workbook) (order : List (Nat × Nat × Nat)) : Prop where
  once : order.Nodup
  all : ∀ n row col, (n, row, col) ∈ order ↔ (w.cell? n row col).isSome

end Workbook

namespace Resolver

/-- What the formulas of a workbook share when a resolution evaluates them. -/
abbrev environment (r : Resolver) (w : Workbook) : Environment := ⟨w, parseFormula, r.today⟩

/-- Every formula of a workbook has a value that stores faithfully, if it has one. -/
def Faithful (r : Resolver) (w : Workbook) : Prop :=
  ∀ n row col c text v, w.cell? n row col = some c → c.value.formula? = some text →
    evaluateFormula (r.environment w) c.value (.index n) [] = .ok v → v.StoresFaithfully

def resolveAt (r : Resolver) (w : Workbook) (position : Nat × Nat × Nat) : Workbook :=
  let (n, row, col) := position
  match w.cell? n row col with
  | none => w
  | some c => w.modifyCell n row col fun _ => (r.resolveCell w n c).1

/-- The workbook after the cells at some positions were resolved, one after the other. A fault of
one does not keep the others from being resolved. -/
def resolveAll (r : Resolver) (w : Workbook) (order : List (Nat × Nat × Nat)) : Workbook :=
  order.foldl r.resolveAt w

end Resolver

end Spreadsheet
