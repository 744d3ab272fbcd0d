import Spreadsheet.Format.Refusal
import Spreadsheet.Workbook.Pass

/-!
# Cells that end a pass

Evaluating a formula meets no fault, but what a pass does with the value is not guarded in the same
way: a text is read as a number, a percent format divides by 100, the value is displayed, and a cell
with a formula is listed. The definitions here say of a single cell on which of these ways it ends
the pass.
-/

namespace Spreadsheet

open Numeral

/-- An extra of a cell would take the place of its format, its display or its color in a listing,
but it is neither a text nor nothing. -/
def Cell.Unlistable (c : Cell) : Prop :=
  ∃ name ∈ ["excel_format", "display_value", "text_color"], ∃ v,
    FormulaCell.extra? c name = some v ∧ v ≠ .null ∧ ∀ s, v ≠ .text s

namespace Resolver

variable (r : Resolver)

/-- The value that the cell of the table with an index displays when it is resolved: its own value,
or that of its formula, scaled for the format. -/
inductive Shows (w : Workbook) (table : Nat) (c : Cell) : Value → Prop
  | plain : c.value.formula? = none → Shows w table c c.value
  | result {text : String} {v x : Value} : c.value.formula? = some text →
    r.stored w table c = .ok v → r.scaled c.format v = .ok x → Shows w table c x

/-- A pass with the standard formatter ends with a fault at the cell at a position. -/
inductive Refuses (w : Workbook) (p : Nat × Nat × Nat) (c : Cell) : Prop
  /-- The index of the table has too many digits for the key of a formula. -/
  | key {text : String} : c.value.formula? = some text → maxDigits < (digitsOf p.1).length →
    Refuses w p c
  /-- The value of the formula is a text that writes a whole number with too many digits. -/
  | numeral {text s : String} : c.value.formula? = some text →
    evaluateFormula (r.environment w) c.value (.index p.1) [] = .ok (.text s) →
    Value.LongNumeral s → Refuses w p c
  /-- A hundredth of the value is beyond the doubles. -/
  | percent {text : String} {n : Int} : c.value.formula? = some text →
    r.stored w p.1 c = .ok (.int n) → r.scaling = true → isPercent c.format = true →
    doubleLimit * 100 ≤ n.natAbs → Refuses w p c
  | display {v : Value} : r.Shows w p.1 c v → Format.Unshowable v c.format → Refuses w p c
  | listing {text : String} : c.value.formula? = some text → c.Unlistable → Refuses w p c

/-- A pass resolves and lists the cells at some positions and then comes to one that it refuses,
with other positions still ahead. -/
structure StopsAt (w : Workbook) (pre : List (Nat × Nat × Nat)) (p : Nat × Nat × Nat)
    (post : List (Nat × Nat × Nat)) : Prop where
  split : w.positions = pre ++ p :: post
  passed : r.Passes w pre
  refused : ∃ c, w.cell? p.1 p.2.1 p.2.2 = some c ∧ r.Refuses (r.resolveAll w pre) p c

end Resolver

end Spreadsheet
