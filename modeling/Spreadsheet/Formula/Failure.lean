import Spreadsheet.Formula.Evaluation

/-!
# Failing expressions

An expression fails when one of its own steps meets a fault or leaves no number where one is needed:
a reference or a cell that cannot be read, a function that is unknown or refuses its arguments, an
operand that is no number, an operator without a result, a power that is not real. What the parts of
an expression have failed at does not count; a part that failed has a value like any other. Under
operators such a part goes on to spoil what is around it: it is an operand, at some depth, of the
whole.
-/

namespace Spreadsheet

open Calendar

/-- The value is no operand of an operator: it counts as no number, or as one that cannot be taken. -/
def Value.IsNoOperand (v : Value) : Prop := ∀ n, operand? v ≠ .ok (some n)

/-- An expression stands in another one with nothing but operators above it, at least one. -/
inductive Expr.OperandOf (part : Expr) : Expr → Prop
  | left {op : Operator} {right : Expr} : OperandOf part (.binary op part right)
  | right {op : Operator} {left : Expr} : OperandOf part (.binary op left part)
  | inLeft {op : Operator} {left right : Expr} : OperandOf part left →
    OperandOf part (.binary op left right)
  | inRight {op : Operator} {left right : Expr} : OperandOf part right →
    OperandOf part (.binary op left right)

/-- A step of the expression itself fails, evaluated over a source for a table. -/
inductive Expr.Fails (s : Source (Except Fault)) (today : Date) (table : TableId) : Expr → Prop
  | missing : Fails s today table .missing
  | cell {reference : String} {named : Option TableId} {f : Fault} :
    s.cellValue (named.getD table) reference = .error f → Fails s today table (.cell reference named)
  | range {reference : String} {named : Option TableId} {f : Fault} :
    s.rangeNumbers (named.getD table) reference = .error f →
    Fails s today table (.range reference named)
  /-- No function has the name. -/
  | name {name : String} {args : List Expr} {f : Fault} :
    Function.find name = .error f → Fails s today table (.call name args)
  /-- The arguments of an aggregate cannot be brought into one list. -/
  | arguments {name : String} {args : List Expr} {g : Aggregate} {f : Fault} :
    Function.find name = .ok (.aggregate g) → Expr.flatValues s today table args = .error f →
    Fails s today table (.call name args)
  | aggregate {name : String} {args : List Expr} {g : Aggregate} {vs : List Value} {f : Fault} :
    Function.find name = .ok (.aggregate g) → Expr.flatValues s today table args = .ok vs →
    g.apply vs = .error f → Fails s today table (.call name args)
  | scalar {name : String} {args : List Expr} {g : Scalar} {vs : List Value} {f : Fault} :
    Function.find name = .ok (.scalar g) → Expr.values s today table args = .ok vs →
    g.apply today vs = .error f → Fails s today table (.call name args)
  | left {op : Operator} {left right : Expr} {v : Value} :
    left.value s today table = .ok v → v.IsNoOperand → Fails s today table (.binary op left right)
  | right {op : Operator} {left right : Expr} {v : Value} :
    right.value s today table = .ok v → v.IsNoOperand → Fails s today table (.binary op left right)
  | operator {op : Operator} {left right : Expr} {v w : Value} {a b : Number} {f : Fault} :
    left.value s today table = .ok v → right.value s today table = .ok w →
    operand? v = .ok (some a) → operand? w = .ok (some b) → op.apply a b = .error f →
    Fails s today table (.binary op left right)
  /-- The power of the two numbers is not real. -/
  | power {left right : Expr} {v w : Value} {a b : Number} :
    left.value s today table = .ok v → right.value s today table = .ok w →
    operand? v = .ok (some a) → operand? w = .ok (some b) → a.pow b = .ok none →
    Fails s today table (.binary .pow left right)

end Spreadsheet
