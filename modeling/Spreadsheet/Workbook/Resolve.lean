import Spreadsheet.Event.Basic
import Spreadsheet.Format.Render
import Spreadsheet.Formula.Evaluator
import Spreadsheet.Workbook.Record

/-!
# Resolution

A resolution visits the cells of a workbook table by table and row by row. A formula cell gets the
value of its formula, any other cell its own value, and both get the text that displays it. The
resolution reports its start, every formula whose value is a sentinel, and its end. Where a display
fails, the cells visited before stay resolved and the resolution ends with that fault.
-/

namespace Spreadsheet

/-- Displays a value under a number format. -/
abbrev Formatter := Value → String → Except Fault Shown

def standardFormatter : Formatter := fun v format => Format.display v (some format)

/-- What a resolution depends on besides the cells. -/
structure Resolver where
  formatter : Formatter
  /-- The value of a formula under a percent format is divided by 100 before it is displayed. -/
  scaling : Bool
  /-- The current date. -/
  today : Calendar.Date

namespace Resolver

def isPercent (format : Option String) : Bool := (format.getD "").toList.contains '%'

/-- The value to display for the result of a formula. -/
def scaled (r : Resolver) (format : Option String) (v : Value) : Except Fault Value :=
  let divide (n : Number) : Except Fault Value := do return (← n.div (.int 100)).toValue
  if r.scaling && isPercent format then
    match v with
    | .int n => divide (.int n)
    | .float x => divide (.float x)
    | v => .ok v
  else .ok v

/-- Sets the display of a cell. An empty color leaves the color as it is. -/
def applyDisplay (r : Resolver) (c : Cell) (v : Value) : Except Fault Cell :=
  match c.format with
  | none | some "" => do return { c with displayValue := some (← v.display) }
  | some format => do
    let shown ← r.formatter v format
    let c := { c with displayValue := some shown.text }
    match shown.color with
    | none | some "" => return c
    | some color => return { c with textColor := some color }

/-- The cell after a display, or the cell as it was and the fault. -/
def orKeep (c : Cell) : Except Fault Cell → Cell × Option Fault
  | .ok shown => (shown, none)
  | .error f => (c, some f)

/-- Stores a value in a cell as its resolved value. -/
def store (c : Cell) (v : Value) : Cell := { c with resolved := true, resolvedValue := v }

/-- Resolves a cell of the table with an index. The cell keeps what was set before a fault. -/
def resolveCell (r : Resolver) (w : Workbook) (table : Nat) (c : Cell) : Cell × Option Fault :=
  match c.value.formula? with
  | none =>
    let c := store c c.value
    orKeep c (r.applyDisplay c c.value)
  | some _ =>
    match evaluateFormula ⟨w, parseFormula, r.today⟩ c.value (.index table) [] with
    | .error f => (c, some f)
    | .ok result =>
      match result.numberForText with
      | .error f => ({ c with resolved := true }, some f)
      | .ok v =>
        let c := store c v
        orKeep c (do r.applyDisplay c (← r.scaled c.format v))

end Resolver

/-! ## Events of a resolution -/

def startEvent (tables : Nat) : Event :=
  { level := .info
    type := .resolveStarted
    context := [("tables", .int tables)]
    message := "Resolving " ++ toString tables ++ " table(s)" }

def endEvent (tables formulas errors : Nat) : Event :=
  { level := .info
    type := .resolveCompleted
    context := [("tables", .int tables), ("formulas", .int formulas), ("errors", .int errors)]
    message := "Resolved " ++ toString formulas ++ " formula(s), " ++ toString errors ++ " error(s)" }

def sentinelCode : Sentinel → String
  | .error => "formula_eval_error"
  | .reference => "formula_ref_error"
  | .divisionByZero => "formula_div_zero"
  | .circular => "formula_circular"

def sentinelEventType : Sentinel → EventType
  | .circular => .circularReference
  | _ => .formulaError

/-- The report of a formula whose value is a sentinel. -/
def sentinelEvent (s : Sentinel) (formula : String) (table row col : Nat) : Event :=
  { level := .warning
    type := sentinelEventType s
    context := Event.cellContext (.int table) (.int row) (.int col) [("formula", .text formula)]
    message := Reference.columnLetters col ++ toString (row + 1) ++ " in table " ++
      toString table ++ " evaluated to " ++ s.text
    errorCode := some (sentinelCode s) }

/-! ## The pass over all cells -/

inductive ResolveFault
  | fault (f : Fault)
  /-- A formula cell cannot be listed. -/
  | listing (faults : List FieldFault)

/-- The state of a resolution. -/
structure Resolution where
  workbook : Workbook
  /-- The formula cells visited, in order. -/
  formulas : List FormulaCell := []
  /-- How many of them have a sentinel as value. -/
  errors : Nat := 0
  /-- The events reported, in order. -/
  events : List Event := []
  /-- The fault that ended the resolution early. -/
  fault : Option ResolveFault := none

namespace Resolution

/-- Lists a formula cell after its resolution. -/
def record (s : Resolution) (c : Cell) (formula : String) (table row col : Nat) : Resolution :=
  let s := match c.resolvedValue.sentinel? with
    | some k => { s with
        errors := s.errors + 1
        events := s.events ++ [sentinelEvent k formula table row col] }
    | none => s
  match FormulaCell.ofCell c table row col with
  | .ok f => { s with formulas := s.formulas ++ [f] }
  | .error faults => { s with fault := some (.listing faults) }

/-- Visits the cell at a position, unless the resolution has ended. -/
def visit (r : Resolver) (s : Resolution) (position : Nat × Nat × Nat) : Resolution :=
  let (table, row, col) := position
  if s.fault.isSome then s
  else
    match s.workbook.cell? table row col with
    | none => s
    | some c =>
      let (c, fault) := r.resolveCell s.workbook table c
      let s := { s with
        workbook := s.workbook.modifyCell table row col fun _ => c
        fault := fault.map .fault }
      match fault, c.value.formula? with
      | none, some formula => s.record c formula table row col
      | _, _ => s

end Resolution

namespace Workbook

/-- The positions of all cells, table by table and row by row. -/
def positions (w : Workbook) : List (Nat × Nat × Nat) :=
  w.zipIdx.flatMap fun (rows, table) =>
    rows.zipIdx.flatMap fun (cells, row) =>
      (List.range cells.length).map fun col => (table, row, col)

/-- Resolves all cells of a workbook. -/
def resolve (w : Workbook) (r : Resolver) : Resolution :=
  let s : Resolution := { workbook := w, events := [startEvent w.length] }
  let s := w.positions.foldl (Resolution.visit r) s
  if s.fault.isSome then s
  else { s with events := s.events ++ [endEvent w.length s.formulas.length s.errors] }

end Workbook

end Spreadsheet
