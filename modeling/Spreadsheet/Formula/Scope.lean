import Mathlib.Data.Option.Basic
import Mathlib.Data.Set.Defs
import Spreadsheet.Formula.Dependency

/-!
# What a formula can reach

A scope is a set of positions together with a set of tables. It holds a formula when it has every
table that the formula names and every position that the formula mentions in one of these. It is
closed when it also holds every unresolved formula that stands at one of its positions: an
evaluation that starts inside never looks outside. Two workbooks agree on a scope when formulas read
the same of the cells at its positions and its tables exist in both or in neither.
-/

namespace Spreadsheet

/-- Formulas read the same of two cells. Formats, displays, colors and further properties do not
count, nor does what was entered in a resolved cell. -/
inductive Cell.ReadsAlike : Cell → Cell → Prop
  | resolved {c d : Cell} : c.resolved = true → d.resolved = true →
    c.resolvedValue = d.resolvedValue → ReadsAlike c d
  | unresolved {c d : Cell} : c.resolved = false → d.resolved = false → c.value = d.value →
    ReadsAlike c d

theorem Cell.ReadsAlike.refl (c : Cell) : c.ReadsAlike c := by
  cases hr : c.resolved with
  | true => exact .resolved hr hr rfl
  | false => exact .unresolved hr hr rfl

namespace Environment

/-- The same parser and the same day over another workbook. -/
def forWorkbook (env : Environment) (w : Workbook) : Environment := { env with workbook := w }

/-- The references of a formula that is read for a table; none where it is not parsed. -/
def mentions (env : Environment) (table : TableId) (text : String) : List Mention :=
  match env.parser text with
  | .error _ => []
  | .ok e => e.mentions table

end Environment

/-- Positions and tables at which evaluations may look. -/
structure Scope where
  /-- The index of the table, the row and the column. -/
  positions : Set (Nat × Nat × Nat)
  tables : Set TableId

namespace Scope

/-- The tables that a formula names and the positions that it mentions are in the scope. -/
structure Holds (s : Scope) (env : Environment) (table : TableId) (text : String) : Prop where
  tables : ∀ m ∈ env.mentions table text, m.table ∈ s.tables
  positions : ∀ m ∈ env.mentions table text, ∀ k, env.workbook.tableIndex? m.table = some k →
    ∀ q ∈ m.positions, (k, q) ∈ s.positions

/-- The scope holds the unresolved formulas at its own positions. -/
def Closed (s : Scope) (env : Environment) : Prop :=
  ∀ n row col c text, (n, row, col) ∈ s.positions → env.workbook.cell? n row col = some c →
    c.openFormula? = some text → s.Holds env (.index n) text

/-- Two workbooks are alike at the positions of a scope and in which of its tables exist. -/
structure Agree (s : Scope) (w v : Workbook) : Prop where
  cells : ∀ n row col, (n, row, col) ∈ s.positions →
    Option.Rel Cell.ReadsAlike (w.cell? n row col) (v.cell? n row col)
  tables : ∀ t ∈ s.tables, (w.tableIndex? t).isSome = (v.tableIndex? t).isSome

end Scope

end Spreadsheet
