import Spreadsheet.Value.Number
import Spreadsheet.Workbook.Basic

/-!
# Expressions

The tree of a formula: literals, references to cells and ranges, calls of functions and operators
between two operands. Unary minus and percent have no node of their own; `negate` and `percent`
build the tree that stands for them.
-/

namespace Spreadsheet

/-- An operator between two operands. A tree made by hand may hold a symbol without meaning. -/
inductive Operator
  | add
  | sub
  | mul
  | div
  | pow
  | eq
  | ne
  | lt
  | gt
  | le
  | ge
  | other (symbol : String)
deriving DecidableEq, Repr

namespace Operator

/-- The operators with a meaning. -/
def known : List Operator := [add, sub, mul, div, pow, eq, ne, lt, gt, le, ge]

theorem other_not_mem_known (symbol : String) : other symbol ∉ known := by
  simp [known]

/-- How an operator is written. -/
def symbol : Operator → String
  | add => "+"
  | sub => "-"
  | mul => "*"
  | div => "/"
  | pow => "^"
  | eq => "="
  | ne => "<>"
  | lt => "<"
  | gt => ">"
  | le => "<="
  | ge => ">="
  | other symbol => symbol

def ofSymbol (s : String) : Operator := (known.find? fun op => op.symbol == s).getD (other s)

/-- How tightly an operator binds: comparisons least, powers most. Unary signs bind between
products and powers. -/
def level : Operator → Nat
  | add | sub => 2
  | mul | div => 3
  | pow => 5
  | _ => 1

end Operator

def signLevel : Nat := 4

/-- The tree of a formula. -/
inductive Expr
  | literal (v : Value)
  /-- A cell, of the table at hand unless one is named. -/
  | cell (reference : String) (table : Option TableId)
  /-- A range of cells, of the table at hand unless one is named. -/
  | range (reference : String) (table : Option TableId)
  | call (name : String) (args : List Expr)
  | binary (op : Operator) (left right : Expr)
  /-- The absence of an expression. -/
  | missing

instance : Inhabited Expr := ⟨.missing⟩

namespace Expr

def isRange : Expr → Bool
  | .range _ _ => true
  | _ => false

/-- The expression with a minus sign: a numeric literal changes its sign, anything else is
subtracted from zero. -/
def negate : Expr → Expr
  | .literal (.int n) => .literal (.int (-n))
  | .literal (.float x) => .literal (.float (-x))
  | e => .binary .sub (.literal (.int 0)) e

def percent (e : Expr) : Expr := .binary .div e (.literal (.int 100))

end Expr

end Spreadsheet
