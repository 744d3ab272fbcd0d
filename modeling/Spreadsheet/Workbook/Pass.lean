import Mathlib.Data.Prod.Lex
import Spreadsheet.Workbook.Visit

/-!
# What a pass leaves in each cell

A resolution passes over the cells once. It stores a value in each and displays it; what it stores
follows from the cells as they are at that moment, those before renewed by the pass and those behind
still as they were. The definitions here split the resolution of a cell into the value that is
stored and the way it is shown, and say when there is nothing left for another pass to change.
-/

namespace Spreadsheet

/-- The cell with a value on display. A color stays when the display comes without one. -/
def Cell.showing (c : Cell) (s : Shown) : Cell :=
  { c with displayValue := some s.text, textColor := s.color.or c.textColor }

/-- The position of a cell comes before another one in a pass: table by table, row by row and from
left to right. -/
def Precedes : Nat × Nat × Nat → Nat × Nat × Nat → Prop :=
  Prod.Lex (· < ·) (Prod.Lex (· < ·) (· < ·))

instance : DecidableRel Precedes :=
  inferInstanceAs (DecidableRel (Prod.Lex (· < ·) (Prod.Lex (· < ·) (· < ·))))

instance : Std.Asymm Precedes :=
  inferInstanceAs (Std.Asymm (Prod.Lex (· < ·) (Prod.Lex (· < ·) (· < ·))))

/-- A workbook in the middle of a pass: before a position it has the cells that the pass leaves,
from there on those that the pass has found. -/
structure Workbook.Halfway (found left : Workbook) (p : Nat × Nat × Nat) (w : Workbook) : Prop where
  length : w.length = found.length
  cell : ∀ n row col, w.cell? n row col =
    if Precedes (n, row, col) p then left.cell? n row col else found.cell? n row col

namespace Resolver

/-- The value that a cell of the table with an index stores when it is resolved. -/
def stored (r : Resolver) (w : Workbook) (table : Nat) (c : Cell) : Except Fault Value :=
  match c.value.formula? with
  | none => .ok c.value
  | some _ => do (← evaluateFormula (r.environment w) c.value (.index table) []).numberForText

/-- How a value is shown under the format of a cell. -/
def shown (r : Resolver) (format : Option String) (v : Value) : Except Fault Shown :=
  match format with
  | none | some "" => do return ⟨← v.display, none⟩
  | some format => do
    let s ← r.formatter v format
    return ⟨s.text, s.color.filter (· ≠ "")⟩

/-- How the value that a cell stores is shown. Only the result of a formula is scaled. -/
def presented (r : Resolver) (c : Cell) : Except Fault Shown :=
  match c.value.formula? with
  | none => r.shown c.format c.resolvedValue
  | some _ => do r.shown c.format (← r.scaled c.format c.resolvedValue)

end Resolver

/-- A pass before its first cell. -/
def Workbook.begun (w : Workbook) : Resolution := { workbook := w, events := [startEvent w.length] }

namespace Resolution

/-- A pass over some tables after its last cell. -/
def ended (s : Resolution) (tables : Nat) : Resolution :=
  { s with events := s.events ++ [endEvent tables s.formulas.length s.errors] }

/-- Lists the cell at a position after its resolution, where it has a formula. -/
def noted (s : Resolution) (c : Cell) (p : Nat × Nat × Nat) : Resolution :=
  match c.value.formula? with
  | some formula => s.record c formula p.1 p.2.1 p.2.2
  | none => s

/-- Lists the cells that a workbook has at some positions. -/
def notedAll (s : Resolution) (w : Workbook) (order : List (Nat × Nat × Nat)) : Resolution :=
  order.foldl (fun s p => ((w.cell? p.1 p.2.1 p.2.2).map fun c => s.noted c p).getD s) s

end Resolution

/-- The cell at a position can be listed, where it has a formula. -/
def Cell.Listable (c : Cell) (p : Nat × Nat × Nat) : Prop :=
  c.value.formula? = none ∨ ∃ f, FormulaCell.ofCell c p.1 p.2.1 p.2.2 = .ok f

namespace Resolver

/-- The cell is resolved and shows what it stores. -/
structure Finished (r : Resolver) (c : Cell) : Prop where
  resolved : c.resolved = true
  shown : ∃ s, r.presented c = .ok s ∧ c.showing s = c

/-- The cells at some positions are resolved and listed one after the other without a fault. -/
def Passes (r : Resolver) (w : Workbook) : List (Nat × Nat × Nat) → Prop
  | [] => True
  | p :: rest => (∀ c, w.cell? p.1 p.2.1 p.2.2 = some c →
      ∃ c', r.resolveCell w p.1 c = (c', none) ∧ c'.Listable p) ∧ Passes r (r.resolveAt w p) rest

/-- Every cell stores the value that it is given when it is resolved once more. -/
def Settled (r : Resolver) (w : Workbook) : Prop :=
  ∀ n row col c, w.cell? n row col = some c → r.stored w n c = .ok c.resolvedValue

end Resolver

end Spreadsheet
