import Spreadsheet.Formula.Mention
import Spreadsheet.Workbook.Pass

/-!
# Edits

After a pass some cells are given other values and the workbook is resolved again. The cells keep
what the earlier pass has stored in them, and the later pass reads it wherever it has not come yet.
A cell is up to date when that is what resolving the edited workbook afresh would store.
-/

namespace Spreadsheet

/-- A new cell with what was entered in a cell. -/
def Cell.renewed (c : Cell) : Cell := { value := c.value, format := c.format }

namespace Workbook

/-- New cells with what was entered in those of a workbook. -/
def renewed (w : Workbook) : Workbook :=
  w.map fun rows => rows.map fun cells => cells.map Cell.renewed

/-- Enters values in the cells at some positions. What was stored in these cells stays. -/
def assign (w : Workbook) (changes : List ((Nat × Nat × Nat) × Value)) : Workbook :=
  changes.foldl
    (fun w change => w.modifyCell change.1.1 change.1.2.1 change.1.2.2 fun c =>
      { c with value := change.2 }) w

/-- A workbook that was resolved and then edited. -/
def edited (w : Workbook) (r : Resolver) (changes : List ((Nat × Nat × Nat) × Value)) : Workbook :=
  (w.resolve r).workbook.assign changes

/-- A formula of the table with an index mentions the cell at a position. -/
def Mentions (w : Workbook) (n : Nat) (text : String) (p : Nat × Nat × Nat) : Prop :=
  ∃ e, parseFormula text = .ok e ∧
    ∃ m ∈ e.mentions (.index n), w.tableIndex? m.table = some p.1 ∧ p.2 ∈ m.positions

end Workbook

/-- Two cells end with the same result. -/
structure Cell.SameOutcome (c d : Cell) : Prop where
  resolved : c.resolved = d.resolved
  resolvedValue : c.resolvedValue = d.resolvedValue
  displayValue : c.displayValue = d.displayValue

/-- A plain value, what is stored of it when a formula has it, and that both can be displayed. -/
structure Value.PassedOn (v stored : Value) : Prop where
  plain : v.formula? = none
  numberForText : v.numberForText = .ok stored
  display : ∃ s, v.display = .ok s
  display_stored : ∃ s, stored.display = .ok s

namespace Resolver

/-- No formula of a workbook has a text as value that counts as a number. -/
def NoNumericText (r : Resolver) (w : Workbook) : Prop :=
  ∀ n row col c text s, w.cell? n row col = some c → c.value.formula? = some text →
    evaluateFormula (r.environment w) c.value (.index n) [] = .ok (.text s) →
    (Value.text s).number? = .ok none

/-- What a cell stores now is what a cell of a workbook stores there. -/
structure UpToDate (r : Resolver) (w : Workbook) (n : Nat) (entered current : Cell) : Prop where
  resolved : current.resolved = true
  stored : r.stored w n entered = .ok current.resolvedValue

/-- Every cell that a formula mentions, unless it comes before that of the formula, stores what it
would store if all cells were new. -/
def AheadUpToDate (r : Resolver) (w : Workbook) : Prop :=
  ∀ n row col c text, w.cell? n row col = some c → c.value.formula? = some text →
    ∀ k row' col' d, w.Mentions n text (k, row', col') →
      ¬ Precedes (k, row', col') (n, row, col) → w.cell? k row' col' = some d →
      r.UpToDate w.renewed k d.renewed d

end Resolver

end Spreadsheet
