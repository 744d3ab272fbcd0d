import Spreadsheet.Formula.Evaluation
import Spreadsheet.Formula.Parser

/-!
# Evaluation

A formula is evaluated over a workbook. A reference to a cell whose own formula has not been
resolved evaluates that formula in place. What is being evaluated is known by its key, the table's
index and the text of the formula; a key that is met again while it is in progress has the value
`#CIRCULAR!`.

Evaluation ends because each formula that is entered on demand is one of the workbook's and puts a
key in progress that was not so before: the count of the workbook's keys that are not in progress
goes down.
-/

namespace Spreadsheet

open Calendar MonadExcept

/-- What the formulas of one evaluation share. -/
structure Environment where
  workbook : Workbook
  /-- Turns the text of a formula into its tree. -/
  parser : String → Except Fault Expr
  /-- The current date. -/
  today : Date

/-- The keys of the formulas being evaluated. -/
abbrev Progress := List String

/-- Key of a formula of the table with an index. -/
def cellKey (table : Nat) (text : String) : String :=
  String.ofList (Numeral.digitsOf table) ++ ":" ++ text

/-- Key of a formula that is evaluated for a table. -/
def formulaKey (table : TableId) (text : String) : Except Fault String := do
  match table with
  | .index n => return (← integerText n) ++ ":" ++ text
  | .other v => return (← v.plain) ++ ":" ++ text

namespace Workbook

/-- The formulas of a workbook, each with the index of its table. -/
def formulas (w : Workbook) : List (Nat × String) :=
  (List.range w.length).flatMap fun n => (w.cellsOf n).filterMap fun c =>
    c.value.formula?.map fun text => (n, text)

def keys (w : Workbook) : List String := w.formulas.map fun f => cellKey f.1 f.2

/-- How many of the workbook's keys are not in progress. -/
def pending (w : Workbook) (p : Progress) : Nat := (w.keys.filter fun k => !p.contains k).length

theorem mem_formulas_of_cell? {w : Workbook} {n row col : Nat} {c : Cell} {text : String}
    (hc : w.cell? n row col = some c) (ht : c.value.formula? = some text) :
    (n, text) ∈ w.formulas := by
  have hmem := mem_cellsOf_of_cell? hc
  have hn : n < w.length := by
    refine Decidable.byContradiction fun h => ?_
    simp [cellsOf, List.getElem?_eq_none (Nat.le_of_not_lt h)] at hmem
  refine List.mem_flatMap.2 ⟨n, List.mem_range.2 hn, List.mem_filterMap.2 ⟨c, hmem, ?_⟩⟩
  rw [ht]
  rfl

theorem cellKey_mem_keys {w : Workbook} {n : Nat} {text : String} (h : (n, text) ∈ w.formulas) :
    cellKey n text ∈ w.keys :=
  List.mem_map.2 ⟨(n, text), h, rfl⟩

theorem pending_cons_lt {w : Workbook} {p : Progress} {k : String} (hk : k ∈ w.keys)
    (hp : k ∉ p) : w.pending (k :: p) < w.pending p := by
  unfold pending
  have split : (w.keys.filter fun x => !(k :: p).contains x) =
      (w.keys.filter fun x => !p.contains x).filter (fun x => x != k) := by
    rw [List.filter_filter]
    congr 1
    funext x
    by_cases h : x = k <;> simp [h]
  rw [split]
  refine List.length_filter_lt_length_iff_exists.2 ⟨k, List.mem_filter.2 ⟨hk, by simpa using hp⟩, ?_⟩
  simp

end Workbook

/-- The value of a cell as formulas see it: its resolved value, else the value that its formula is
given, else what was entered. -/
def Cell.read {m : Type → Type} [Monad m] (c : Cell)
    (evaluate : (text : String) → c.value.formula? = some text → m Value) : m Value :=
  if c.resolved then pure c.resolvedValue
  else
    match h : c.value.formula? with
    | none => pure c.value
    | some text => evaluate text h

/-- The cells of a workbook as a source, with the values that their formulas are given. -/
def Workbook.source {m : Type → Type} [Monad m] (w : Workbook)
    (evaluate : (n : Nat) → (text : String) → (n, text) ∈ w.formulas → m Value) : Source m where
  tableIndex? := w.tableIndex?
  read? n row col :=
    match hc : w.cell? n row col with
    | none => none
    | some c => some (c.read fun text ht => evaluate n text (mem_formulas_of_cell? hc ht))

namespace Environment

/-- The value of a formula for a table: its text is parsed and the tree evaluated over a source. -/
def enter {m : Type → Type} [Monad m] [MonadExceptOf Fault m] (env : Environment) (s : Source m)
    (table : TableId) (text : String) : m Value :=
  contain do
    let e ← ofExcept (env.parser text)
    e.value s env.today table

/-- The value of a formula of the workbook, with some formulas in progress. -/
def formulaValue (env : Environment) (p : Progress) (n : Nat) (text : String)
    (_member : (n, text) ∈ env.workbook.formulas) : Except Fault Value :=
  if _new : cellKey n text ∈ p then .ok Sentinel.circular.value
  else
    env.enter (env.workbook.source fun k inner hm => formulaValue env (cellKey n text :: p) k inner hm)
      (.index n) text
termination_by env.workbook.pending p
decreasing_by exact Workbook.pending_cons_lt (Workbook.cellKey_mem_keys _member) _new

/-- The cells that an evaluation reads, with some formulas in progress. -/
def source (env : Environment) (p : Progress) : Source (Except Fault) :=
  env.workbook.source (env.formulaValue p)

theorem formulaValue_of_not_mem (env : Environment) {p : Progress} {n : Nat} {text : String}
    (member : (n, text) ∈ env.workbook.formulas) (h : cellKey n text ∉ p) :
    env.formulaValue p n text member =
      env.enter (env.source (cellKey n text :: p)) (.index n) text := by
  rw [formulaValue, dif_neg h]
  rfl

theorem formulaValue_of_mem (env : Environment) {p : Progress} {n : Nat} {text : String}
    (member : (n, text) ∈ env.workbook.formulas) (h : cellKey n text ∈ p) :
    env.formulaValue p n text member = .ok Sentinel.circular.value := by
  rw [formulaValue, dif_pos h]

end Environment

/-- The value of an expression for a table, with some formulas in progress. -/
def evaluate (env : Environment) (table : TableId) (p : Progress) (e : Expr) :
    Except Fault Value :=
  e.value (env.source p) env.today table

/-- The values of some arguments of a function in one flat list. -/
def flatValues (env : Environment) (table : TableId) (p : Progress) (args : List Expr) :
    Except Fault (List Value) :=
  Expr.flatValues (env.source p) env.today table args

/-- The value of what a cell of a table holds: a formula is evaluated, anything else is its own
value. -/
def evaluateFormula (env : Environment) (content : Value) (table : TableId) (p : Progress) :
    Except Fault Value :=
  match content.formula? with
  | none => .ok content
  | some text => do
    let key ← formulaKey table text
    if key ∈ p then return Sentinel.circular.value
    else env.enter (env.source (key :: p)) table text

end Spreadsheet
