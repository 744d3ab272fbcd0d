import Spreadsheet.Formula.Expr
import Spreadsheet.Value.Display
import Spreadsheet.Workbook.Lookup

/-!
# Functions

An aggregate takes one flat list of values and looks at the numbers among them; a scalar function
takes its evaluated arguments as they are. Names are case-sensitive.
-/

namespace Spreadsheet

open Calendar Workbook

/-- A function of a flat list of values. -/
inductive Aggregate
  | sum
  | average
  | count
  | max
  | min
deriving DecidableEq, Repr

/-- A function of its arguments one by one. -/
inductive Scalar
  | cond
  | date
  | today
deriving DecidableEq, Repr

/-- A function that a formula may call. -/
inductive Function
  | aggregate (f : Aggregate)
  | scalar (f : Scalar)
deriving DecidableEq, Repr

def Function.table : List (String × Function) :=
  [("SUM", .aggregate .sum), ("AVERAGE", .aggregate .average), ("COUNT", .aggregate .count),
   ("MAX", .aggregate .max), ("MIN", .aggregate .min), ("IF", .scalar .cond),
   ("DATE", .scalar .date), ("TODAY", .scalar .today)]

def Function.find (name : String) : Except Fault Function :=
  match table.find? fun entry => entry.1 == name with
  | some entry => .ok entry.2
  | none => .error (.unknownFunction name)

/-! ## Aggregates -/

/-- Sum from left to right, starting from the whole number zero. -/
def total (numbers : List Number) : Except Fault Number := numbers.foldlM Number.add (.int 0)

/-- Sum of the numbers divided by their count; zero when there are none. -/
def mean (numbers : List Number) : Except Fault Number := do
  if numbers.isEmpty then return .int 0
  (← total numbers).div (.int numbers.length)

/-- Count of the values that count as numbers, booleans left out. -/
def countNumbers : List Value → Except Fault Nat
  | [] => .ok 0
  | .bool _ :: rest => countNumbers rest
  | v :: rest => do
    let n ← v.number?
    let k ← countNumbers rest
    return if n.isSome then k + 1 else k

/-- The first of the numbers that no other one exceeds. -/
def greatest : List Number → Option Number
  | [] => none
  | n :: rest => some (rest.foldl (fun best k => if best.lt k then k else best) n)

/-- The first of the numbers that exceeds no other one. -/
def least : List Number → Option Number
  | [] => none
  | n :: rest => some (rest.foldl (fun best k => if k.lt best then k else best) n)

def numberOrError (n : Option Number) : Value := (n.map Number.toValue).getD Sentinel.error.value

/-- The value of an aggregate. -/
def Aggregate.apply (f : Aggregate) (values : List Value) : Except Fault Value :=
  match f with
  | .sum => do return (← total (← numbersOf values)).toValue
  | .average => do return (← mean (← numbersOf values)).toValue
  | .count => do return .int (← countNumbers values)
  | .max => do return numberOrError (greatest (← numbersOf values))
  | .min => do return numberOrError (least (← numbersOf values))

/-! ## Scalar functions -/

/-- The second argument where the first counts as true, else the third or the truth value false. -/
def choose : List Value → Except Fault Value
  | [c, yes] => .ok (if c.isTrue then yes else .bool false)
  | [c, yes, no] => .ok (if c.isTrue then yes else no)
  | _ => .error (.argumentCount "IF")

/-- The whole part of an argument that has to be a number. -/
def wholeArgument (name label : String) (v : Value) : Except Fault Int := do
  match ← v.number? with
  | none => .error (.notNumeric name label (← v.literal))
  | some n =>
    match n.truncate? with
    | some k => return k
    | none => .error .tooLarge

/-- The date `day - 1` days after the first of a month, months being counted on over the ends of a
year; the month and the date have to lie in the years 1 to 9999. -/
def rolledDate? (year month day : Int) : Option Date :=
  let months := year * 12 + (month - 1)
  let y := months.fdiv 12
  let m := months.fmod 12 + 1
  if 1 ≤ y then do
    let first ← Date.ofCivil? ⟨y.toNat, m.toNat, 1⟩
    first.addDays? (day - 1)
  else none

/-- The date with a year, a month and a day. -/
def dateOf : List Value → Except Fault Value
  | [year, month, day] => do
    let y ← wholeArgument "DATE" "year" year
    let m ← wholeArgument "DATE" "month" month
    let d ← wholeArgument "DATE" "day" day
    match rolledDate? y m d with
    | some date => return .date date
    | none => .error .invalidDate
  | _ => .error (.argumentCount "DATE")

def Scalar.apply (f : Scalar) (today : Date) (args : List Value) : Except Fault Value :=
  match f with
  | .cond => choose args
  | .date => dateOf args
  | .today => if args.isEmpty then .ok (.date today) else .error (.argumentCount "TODAY")

/-- The value of a function on arguments that are evaluated already. -/
def Function.apply (f : Function) (today : Date) (values : List Value) : Except Fault Value :=
  match f with
  | .aggregate f => f.apply values
  | .scalar f => f.apply today values

/-! ## Operators -/

/-- The number that an operand counts as: blanks are zero. -/
def operand? (v : Value) : Except Fault (Option Number) :=
  if v.isBlank then .ok (some (.int 0)) else v.number?

/-- The value of an operator between two numbers. -/
def Operator.apply (op : Operator) (a b : Number) : Except Fault Value :=
  match op with
  | .add => do return (← a.add b).toValue
  | .sub => do return (← a.sub b).toValue
  | .mul => do return (← a.mul b).toValue
  | .div =>
    if b.isZero then .ok Sentinel.divisionByZero.value else do return (← a.div b).toValue
  | .pow => do return numberOrError (← a.pow b)
  | .eq => .ok (.bool (a.eq b))
  | .ne => .ok (.bool !(a.eq b))
  | .lt => .ok (.bool (a.lt b))
  | .gt => .ok (.bool (b.lt a))
  | .le => .ok (.bool (a.lt b || a.eq b))
  | .ge => .ok (.bool (b.lt a || a.eq b))
  | .other symbol => .error (.unknownOperator symbol)

end Spreadsheet
