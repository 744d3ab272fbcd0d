import Spreadsheet.Formula.Evaluator

/-!
# Evaluation without the check for cycles

The evaluator of a formula once more, without keeping which formulas are in progress: a cell whose
formula has not been resolved is evaluated wherever it is met. This need not end, so the depth to
which evaluations may nest is limited; beyond the limit there is no answer at all, which no
expression takes for a fault.
-/

namespace Spreadsheet

open MonadExcept

namespace Environment

/-- The value of a formula of the table with an index, with evaluations nested at most to a
depth. -/
def unguarded (env : Environment) : Nat → Nat → String → ExceptT Fault Option Value
  | 0, _, _ => .mk none
  | depth + 1, n, text =>
    env.enter (env.workbook.source fun k inner _ => unguarded env depth k inner) (.index n) text

/-- The cells that an evaluation without the check reads. -/
def unguardedSource (env : Environment) (depth : Nat) : Source (ExceptT Fault Option) :=
  env.workbook.source fun n text _ => env.unguarded depth n text

end Environment

/-- The value of what a cell of a table holds, by the evaluator without the check. -/
def unguardedFormula (env : Environment) (depth : Nat) (content : Value) (table : TableId) :
    ExceptT Fault Option Value :=
  match content.formula? with
  | none => pure content
  | some text => do
    let _key ← ofExcept (formulaKey table text)
    env.enter (env.unguardedSource depth) table text

end Spreadsheet
