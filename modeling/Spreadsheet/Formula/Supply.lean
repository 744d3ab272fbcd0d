import Spreadsheet.Formula.Evaluator

/-!
# What arguments supply

The arguments of an aggregate supply values: a range those of the cells that it covers, a reference
to one cell its value, and any other argument its value or, if that is a list, the items. Under a
range the values are made numbers before the aggregate sees them, and it takes the number of each
once more.
-/

namespace Spreadsheet

open Calendar Workbook

/-- A reference stands for the cell at a position, its row and column. -/
def Reference.Names (reference : String) (position : Nat × Nat) : Prop :=
  ∃ at_, Reference.parse reference = .ok (some at_) ∧ (at_.row, at_.col) = position

/-- The value is text that writes a whole number too large for a double. The text counts as that
number, but the number as a value counts as none. -/
inductive Value.WritesBeyond : Value → Prop
  | text {s : String} {n : Int} : numberOfText s = .ok (some (.int n)) →
    Numeral.ofInt? n = none → WritesBeyond (.text s)

/-- The value counts as a number and is no boolean. -/
def Value.isCountable (v : Value) : Bool :=
  match v, v.number? with
  | .bool _, _ => false
  | _, .ok (some _) => true
  | _, _ => false

/-- A value that an argument of an aggregate supplies. -/
inductive Supply
  /-- The value of a cell under a range. -/
  | covered (v : Value)
  /-- The value of a reference to one cell, or an item of the value of another argument. -/
  | single (v : Value)

namespace Supply

def value : Supply → Value
  | covered v => v
  | single v => v

/-- The value is a boolean under a range. -/
def isCoveredBool : Supply → Bool
  | covered (.bool _) => true
  | _ => false

/-- The number that the value counts as cannot be taken. -/
inductive Refused : Supply → Prop
  | value {u : Supply} {f : Fault} : u.value.number? = .error f → Refused u
  /-- A number that was taken under a range is taken once more. -/
  | beyond {v : Value} : v.WritesBeyond → Refused (covered v)

end Supply

/-- The values of the cells that a range covers in a table; positions without a cell are skipped,
and a range that is malformed or in no table covers none. -/
def Source.coveredValues (s : Source (Except Fault)) (table : TableId) (range : String) :
    Except Fault (List Value) :=
  match s.tableIndex? table with
  | none => .ok []
  | some n => do
    match ← Reference.expand range with
    | none => return []
    | some positions => (positions.filterMap fun p => s.read? n p.1 p.2).mapM fun read => read

namespace Expr

def supplied (s : Source (Except Fault)) (today : Date) (table : TableId) :
    Expr → Except Fault (List Supply)
  | .range reference named => do
    return (← s.coveredValues (named.getD table) reference).map .covered
  | .cell reference named => do return [.single (← s.cellValue (named.getD table) reference)]
  | e => do return (← e.value s today table).items.map .single

def suppliedAll (s : Source (Except Fault)) (today : Date) (table : TableId) :
    List Expr → Except Fault (List Supply)
  | [] => .ok []
  | e :: rest => do
    let us ← e.supplied s today table
    return us ++ (← suppliedAll s today table rest)

def numbersAmong (s : Source (Except Fault)) (today : Date) (table : TableId)
    (args : List Expr) : Except Fault (List Number) := do
  numbersOf (← flatValues s today table args)

end Expr

/-- What the arguments of a function supply that is evaluated for a table, with some formulas in
progress. -/
def suppliedValues (env : Environment) (table : TableId) (p : Progress) (args : List Expr) :
    Except Fault (List Supply) :=
  Expr.suppliedAll (env.source p) env.today table args

end Spreadsheet
