import Spreadsheet.Formula.Expr
import Spreadsheet.Reference.Coordinate

/-!
# Mentions

What a formula says about cells: every reference in its tree, with the table that it is read in and
the positions that it stands for. A mention counts wherever it stands, also in an argument that a
function does not need. A tree is qualified with a table by naming that table in every reference
that names none.
-/

namespace Spreadsheet

/-- A reference of a formula and the table that it is read in. -/
inductive Mention
  | cell (table : TableId) (reference : String)
  | range (table : TableId) (reference : String)

namespace Mention

def table : Mention → TableId
  | .cell table _ => table
  | .range table _ => table

/-- The positions that the reference stands for, none where it is malformed. -/
def positions : Mention → List (Nat × Nat)
  | .cell _ reference =>
    match Reference.parse reference with
    | .ok (some at_) => [(at_.row, at_.col)]
    | _ => []
  | .range _ reference =>
    match Reference.expand reference with
    | .ok (some covered) => covered
    | _ => []

end Mention

namespace Expr

mutual

/-- The references in an expression that is evaluated for a table. -/
def mentions (table : TableId) : Expr → List Mention
  | .cell reference named => [.cell (named.getD table) reference]
  | .range reference named => [.range (named.getD table) reference]
  | .call _ args => mentionsIn table args
  | .binary _ left right => mentions table left ++ mentions table right
  | .literal _ | .missing => []

def mentionsIn (table : TableId) : List Expr → List Mention
  | [] => []
  | e :: rest => mentions table e ++ mentionsIn table rest

end

mutual

/-- The expression with a table named in every reference that names none. -/
def qualified (table : TableId) : Expr → Expr
  | .cell reference named => .cell reference (some (named.getD table))
  | .range reference named => .range reference (some (named.getD table))
  | .call name args => .call name (qualifiedAll table args)
  | .binary op left right => .binary op (qualified table left) (qualified table right)
  | .literal v => .literal v
  | .missing => .missing

/-- Some arguments with a table named in every reference that names none. -/
def qualifiedAll (table : TableId) : List Expr → List Expr
  | [] => []
  | e :: rest => qualified table e :: qualifiedAll table rest

end

theorem isRange_qualified (table : TableId) (e : Expr) :
    (e.qualified table).isRange = e.isRange := by
  cases e <;> simp [qualified, isRange]

end Expr

end Spreadsheet
