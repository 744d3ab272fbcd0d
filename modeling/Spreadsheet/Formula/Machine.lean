import Mathlib.Data.Finset.Card
import Spreadsheet.Formula.Evaluator

/-!
# Evaluation with one shared set of keys

The evaluator of a formula once more, as a machine: all evaluations of one run share a set of keys.
A call that finds its key in the set is refused and gives `#CIRCULAR!` at once; any other puts its
key in, and takes it out again however its work ends. The machine notes which calls below the
outermost one stand on one another, and which of them hold their keys, whenever a call starts, is
let in, gives its key back or ends. A call that is refused stands as well, but holds no key.

Nothing in the machine sees to it that calls come to an end: how deep they may nest below the
outermost one, refused calls included, is limited, and beyond the limit there is no answer.
-/

namespace Spreadsheet

open MonadExcept

/-- What is the case at one moment of a run. The calls are those below the outermost one, the
innermost first, each with the index of its table and the text of its formula. -/
structure Snapshot where
  /-- The keys in progress. -/
  progress : Finset String
  /-- The calls that have started and not ended. -/
  standing : List (Nat × String) := []
  /-- Those of them that hold their keys. -/
  holding : List (Nat × String) := []

namespace Snapshot

/-- The keys that calls below the outermost one hold. -/
def keys (s : Snapshot) : List String := s.holding.map fun c => cellKey c.1 c.2

def started (s : Snapshot) (call : Nat × String) : Snapshot :=
  { s with standing := call :: s.standing }

def ended (s : Snapshot) : Snapshot := { s with standing := s.standing.tail }

def taken (s : Snapshot) (key : String) : Snapshot :=
  { s with progress := insert key s.progress }

def given (s : Snapshot) (key : String) : Snapshot :=
  { s with progress := s.progress.erase key }

/-- A call puts its key in and holds it. -/
def letIn (s : Snapshot) (call : Nat × String) : Snapshot :=
  { s.taken (cellKey call.1 call.2) with holding := call :: s.holding }

/-- The call that was let in last takes its key out. -/
def letOut (s : Snapshot) (call : Nat × String) : Snapshot :=
  { s.given (cellKey call.1 call.2) with holding := s.holding.tail }

end Snapshot

/-- What the calls of one run share, and what is noted of them. -/
structure Memory extends Snapshot where
  /-- The moments noted, the latest first. -/
  history : List Snapshot := []

/-- Computations over a shared memory, which keeps what was done before a fault. -/
abbrev Machine := ExceptT Fault (StateT Memory Option)

/-- The memory at a new moment, which is noted. -/
def Memory.moved (σ : Memory) (move : Snapshot → Snapshot) : Memory where
  toSnapshot := move σ.toSnapshot
  history := move σ.toSnapshot :: σ.history

namespace Machine

/-- However the computation ends, with a value or with a fault, the keys in progress are those of
its start. -/
def Restores {α : Type} (x : Machine α) : Prop :=
  ∀ (σ τ : Memory) (outcome : Except Fault α), x.run σ = some (outcome, τ) →
    τ.progress = σ.progress

/-- Runs a body between two moves; the second one is made also when the body fails. -/
def between (enter leave : Snapshot → Snapshot) (body : Machine Value) : Machine Value :=
  .mk do
    modify fun σ => σ.moved enter
    let result ← body.run
    modify fun σ => σ.moved leave
    return result

/-- A key in progress is refused; any other is let through to the body. -/
def guarded (key : String) (body : Machine Value) : Machine Value := do
  let σ ← get
  if key ∈ σ.progress then return Sentinel.circular.value
  else body

end Machine

namespace Environment

/-- A call for a formula of the table with an index, with calls nested at most to a depth, itself
among them. -/
def call (env : Environment) : Nat → Nat → String → Machine Value
  | 0, _, _ => .mk fun _ => none
  | depth + 1, n, text =>
    Machine.between (·.started (n, text)) (·.ended) <|
      Machine.guarded (cellKey n text) <|
        Machine.between (·.letIn (n, text)) (·.letOut (n, text)) <|
          env.enter (env.workbook.source fun k inner _ => call env depth k inner) (.index n) text

/-- The cells that a call reads, with further calls nested at most to a depth. -/
def machineSource (env : Environment) (depth : Nat) : Source Machine :=
  env.workbook.source fun n text _ => env.call depth n text

end Environment

/-- The outermost call: the value of what a cell of a table holds, with calls nested below it at
most to a depth. -/
def machineFormula (env : Environment) (depth : Nat) (content : Value) (table : TableId) :
    Machine Value :=
  match content.formula? with
  | none => pure content
  | some text => do
    let key ← ofExcept (formulaKey table text)
    Machine.guarded key <|
      Machine.between (·.taken key) (·.given key) (env.enter (env.machineSource depth) table text)

/-- The value of an expression for a table, with calls nested below it at most to a depth. -/
def machineExpression (env : Environment) (depth : Nat) (table : TableId) (e : Expr) :
    Machine Value :=
  e.value (env.machineSource depth) env.today table

end Spreadsheet
