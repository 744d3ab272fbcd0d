import Spreadsheet.Formula.Function

/-!
# Values of expressions

The value of an expression is computed over a source, which tells the tables apart and reads their
cells. What reading a cell takes is the source's own affair: it may give a stored value, or evaluate
the cell's formula. The computation runs in any monad with faults, so the same walk over the tree
serves evaluators that differ in what they keep beside the value. Every expression turns the faults
met inside it into the value `#ERROR!`.
-/

namespace Spreadsheet

open Calendar MonadExcept

/-- The tables that an evaluation reads from. -/
structure Source (m : Type → Type) where
  /-- Index of the table that a name stands for, where there is one. -/
  tableIndex? : TableId → Option Nat
  /-- Reads the cell at a table's index, a row and a column, where there is one. -/
  read? : Nat → Nat → Nat → Option (m Value)

/-- The items of a list; any other value is an item by itself. -/
def Value.items : Value → List Value
  | .list items => items
  | v => [v]

variable {m : Type → Type} [Monad m] [MonadExceptOf Fault m]

/-- The error sentinel in place of a contained fault. -/
def contain (x : m Value) : m Value :=
  tryCatchThe Fault x fun f => if f.isContained then pure Sentinel.error.value else throwThe Fault f

/-- The numbers among the values of some cells. -/
def readNumbers : List (m Value) → m (List Number)
  | [] => pure []
  | read :: rest => do
    let v ← read
    let n ← ofExcept v.number?
    let numbers ← readNumbers rest
    return n.toList ++ numbers

namespace Source

/-- The value of the cell that a reference names in a table. -/
def cellValue (s : Source m) (table : TableId) (reference : String) : m Value :=
  match s.tableIndex? table with
  | none => pure Sentinel.reference.value
  | some n => do
    match ← ofExcept (Reference.parse reference) with
    | none => return Sentinel.reference.value
    | some position =>
      match s.read? n position.row position.col with
      | none => return Sentinel.reference.value
      | some read => read

/-- The numbers of the cells that a range covers in a table. -/
def rangeNumbers (s : Source m) (table : TableId) (range : String) : m (Option (List Number)) :=
  match s.tableIndex? table with
  | none => pure none
  | some n => do
    match ← ofExcept (Reference.expand range) with
    | none => return none
    | some positions =>
      return some (← readNumbers (positions.filterMap fun p => s.read? n p.1 p.2))

end Source

namespace Expr

mutual

/-- The value of an expression for a table. -/
def value (s : Source m) (today : Date) (table : TableId) (e : Expr) : m Value :=
  contain <| match e with
  | .literal v => pure v
  | .cell reference named => s.cellValue (named.getD table) reference
  | .range reference named => do
    match ← s.rangeNumbers (named.getD table) reference with
    | some numbers => return .list (numbers.map Number.toValue)
    | none => return .null
  | .call name args => do
    match ← ofExcept (Function.find name) with
    | .aggregate f => ofExcept (f.apply (← flatValues s today table args))
    | .scalar f => ofExcept (f.apply today (← values s today table args))
  | .binary op left right => do
    if left.isRange || right.isRange then return Sentinel.error.value
    let a ← ofExcept (operand? (← value s today table left))
    let b ← ofExcept (operand? (← value s today table right))
    match a, b with
    | some a, some b => ofExcept (op.apply a b)
    | _, _ => return Sentinel.error.value
  | .missing => pure Sentinel.error.value

def values (s : Source m) (today : Date) (table : TableId) (args : List Expr) : m (List Value) :=
  match args with
  | [] => pure []
  | e :: rest => do
    let v ← value s today table e
    return v :: (← values s today table rest)

/-- The values of some arguments in one flat list: a range gives its numbers, a cell its value,
and the items of a list stand for themselves. -/
def flatValues (s : Source m) (today : Date) (table : TableId) (args : List Expr) :
    m (List Value) :=
  match args with
  | [] => pure []
  | e :: rest => do
    let vs ← match e with
      | .range reference named => do
        let numbers ← s.rangeNumbers (named.getD table) reference
        pure ((numbers.getD []).map Number.toValue)
      | .cell reference named => do
        let v ← s.cellValue (named.getD table) reference
        pure [v]
      | e => do
        let v ← value s today table e
        pure v.items
    return vs ++ (← flatValues s today table rest)

end

end Expr

end Spreadsheet
