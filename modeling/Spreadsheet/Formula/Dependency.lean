import Spreadsheet.Formula.Evaluator
import Spreadsheet.Formula.Mention

/-!
# Dependencies between formulas

A formula calls another one when it mentions a cell that holds it unresolved; following calls from
formula to formula gives those that it reaches. A formula is free of cycles, beside some formulas in
progress, when no key comes twice on any way along these calls and none of those in progress comes
at all.
-/

namespace Spreadsheet

/-- The formula of a cell that has not been resolved. -/
def Cell.openFormula? (c : Cell) : Option String := if c.resolved then none else c.value.formula?

theorem Cell.openFormula?_eq_some {c : Cell} {text : String} :
    c.openFormula? = some text ↔ c.resolved = false ∧ c.value.formula? = some text := by
  unfold openFormula?
  cases c.resolved <;> simp

/-- The formulas of the cells that a reference stands for, where they have not been resolved, each
with the index of its table. -/
def Workbook.openFormulas (w : Workbook) (r : Mention) : List (Nat × String) :=
  match w.tableIndex? r.table with
  | none => []
  | some n => r.positions.filterMap fun p =>
      (w.cell? n p.1 p.2).bind fun c => c.openFormula?.map fun text => (n, text)

namespace Environment

/-- The formulas that the text of a formula, read for a table, calls. -/
def callees (env : Environment) (table : TableId) (text : String) : List (Nat × String) :=
  match env.parser text with
  | .error _ => []
  | .ok e => (e.mentions table).flatMap env.workbook.openFormulas

/-- A formula leads to another one by one call or more. -/
inductive Reaches (env : Environment) (table : TableId) (text : String) : Nat × String → Prop
  | call {f : Nat × String} : f ∈ env.callees table text → Reaches env table text f
  | step {f g : Nat × String} : Reaches env table text f → g ∈ env.callees (.index f.1) f.2 →
      Reaches env table text g

/-- A formula with a key, beside some formulas in progress, leads to no key twice. -/
structure NoCycle (env : Environment) (table : TableId) (text key : String) (p : Progress) :
    Prop where
  idle : key ∉ p
  reached_idle : ∀ f, env.Reaches table text f → cellKey f.1 f.2 ∉ p
  no_return : ∀ f, env.Reaches table text f → cellKey f.1 f.2 ≠ key
  acyclic : ∀ f, env.Reaches table text f → ∀ g, env.Reaches (.index f.1) f.2 g →
    cellKey g.1 g.2 ≠ cellKey f.1 f.2

/-- No formula of the workbook leads to its own key. -/
def Acyclic (env : Environment) : Prop :=
  ∀ f ∈ env.workbook.formulas, ∀ g, env.Reaches (.index f.1) f.2 g →
    cellKey g.1 g.2 ≠ cellKey f.1 f.2

end Environment

end Spreadsheet
