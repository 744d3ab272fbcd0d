import Mathlib.Logic.Relation
import Spreadsheet.Formula.Evaluator

/-!
# Cells that forward another one

A formula that is nothing but a reference forwards the cell that it names. Followed from cell to
cell and from table to table, such references lead into a loop, or end: at a cell that holds no
formula, at a reference that names no cell, or at a formula that does more than refer.
-/

namespace Spreadsheet.Environment

open Relation

variable (env : Environment)

/-- The formula at a position, the index of a table, a row and a column, is nothing but a reference
that is read in a table. -/
inductive Refers (p : Nat × Nat × Nat) : TableId → String → Prop
  | intro {c : Cell} {text reference : String} {named : Option TableId} :
    env.workbook.cell? p.1 p.2.1 p.2.2 = some c → c.value.formula? = some text →
    env.parser text = .ok (.cell reference named) →
    Refers p (named.getD (.index p.1)) reference

/-- The formula at a position forwards the cell at another one. -/
inductive Forwards (p : Nat × Nat × Nat) : Nat × Nat × Nat → Prop
  | intro {table : TableId} {reference : String} {k : Nat} {at_ : Reference.Coordinate} :
    env.Refers p table reference → env.workbook.tableIndex? table = some k →
    Reference.parse reference = .ok (some at_) →
    (env.workbook.cell? k at_.row at_.col).isSome → Forwards p (k, at_.row, at_.col)

/-- The formula at a position is a reference that names no cell: its table is missing, it is
malformed, or there is no cell where it points. -/
inductive Dangles (p : Nat × Nat × Nat) : Prop
  | table {table : TableId} {reference : String} : env.Refers p table reference →
    env.workbook.tableIndex? table = none → Dangles p
  | reference {table : TableId} {reference : String} : env.Refers p table reference →
    Reference.parse reference = .ok none → Dangles p
  | cell {table : TableId} {reference : String} {k : Nat} {at_ : Reference.Coordinate} :
    env.Refers p table reference → env.workbook.tableIndex? table = some k →
    Reference.parse reference = .ok (some at_) →
    env.workbook.cell? k at_.row at_.col = none → Dangles p

/-- Following references from a position leads into a loop. -/
def Circles (p : Nat × Nat × Nat) : Prop :=
  ∃ q, ReflTransGen env.Forwards p q ∧ TransGen env.Forwards q q

end Spreadsheet.Environment
