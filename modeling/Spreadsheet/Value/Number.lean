import Spreadsheet.Numeral.Decimal
import Spreadsheet.Numeral.Reading
import Spreadsheet.Text.Blank
import Spreadsheet.Value.Basic

/-!
# Numbers

A number is a whole number of any size or a double. Arithmetic between two whole numbers is exact,
except that a quotient is the nearest double; as soon as one operand is a double the other is made
one too, and a whole number too large for that is a fault. Comparison is exact for every pair of
kinds. `Value.number?` tells which number a value counts as.
-/

namespace Spreadsheet

open Numeral

/-- A whole number or a double. -/
inductive Number
  | int (n : Int)
  | float (x : Float)

namespace Number

instance : Inhabited Number := ⟨.int 0⟩

def toValue : Number → Value
  | .int n => .int n
  | .float x => .float x

def toFloat : Number → Except Fault Float
  | .int n => match ofInt? n with
    | some x => .ok x
    | none => .error .tooLarge
  | .float x => .ok x

/-- Combines two whole numbers exactly, any others as doubles. -/
def combine (whole : Int → Int → Int) (double : Float → Float → Float) (a b : Number) :
    Except Fault Number :=
  match a, b with
  | .int m, .int n => .ok (.int (whole m n))
  | a, b => do
    let x ← a.toFloat
    let y ← b.toFloat
    return .float (double x y)

def add : Number → Number → Except Fault Number := combine (· + ·) (· + ·)

def sub : Number → Number → Except Fault Number := combine (· - ·) (· - ·)

def mul : Number → Number → Except Fault Number := combine (· * ·) (· * ·)

/-- The quotient of two numbers, the second of which is not zero. -/
def div (a b : Number) : Except Fault Number :=
  match a, b with
  | .int m, .int n => match ofQuotient? m n with
    | some x => .ok (.float x)
    | none => .error .tooLarge
  | a, b => do
    let x ← a.toFloat
    let y ← b.toFloat
    return .float (x / y)

def neg : Number → Number
  | .int n => .int (-n)
  | .float x => .float (-x)

def abs : Number → Number
  | .int n => .int n.natAbs
  | .float x => .float x.abs

/-- A number without rounding: infinite, or `m · 2 ^ e`. -/
inductive Exact
  | negInfinity
  | finite (m e : Int)
  | posInfinity

/-- The exact value of a number; `none` for a double that is not a number. -/
def exactValue? : Number → Option Exact
  | .int n => some (.finite n 0)
  | .float x => match decode x with
    | .nan => none
    | .infinite negative => some (if negative then .negInfinity else .posInfinity)
    | .finite negative m e => some (.finite (if negative then -m else m) e)

/-- Order of `m · 2 ^ e` and `m' · 2 ^ e'`, compared as multiples of the smaller power. -/
def compareFinite (m e m' e' : Int) : Ordering :=
  let low := min e e'
  compare (m * Int.pow 2 (e - low).toNat) (m' * Int.pow 2 (e' - low).toNat)

/-- Order of exact values. -/
def Exact.compare : Exact → Exact → Ordering
  | .negInfinity, .negInfinity => .eq
  | .negInfinity, _ => .lt
  | _, .negInfinity => .gt
  | .posInfinity, .posInfinity => .eq
  | .posInfinity, _ => .gt
  | _, .posInfinity => .lt
  | .finite m e, .finite m' e' => compareFinite m e m' e'

/-- Order of two numbers; `none` when one of them is not a number. -/
def compare? (a b : Number) : Option Ordering := do
  let x ← a.exactValue?
  let y ← b.exactValue?
  return x.compare y

def lt (a b : Number) : Bool := a.compare? b == some .lt

def eq (a b : Number) : Bool := a.compare? b == some .eq

def isZero (a : Number) : Bool := a.eq (.int 0)

def isNegative (a : Number) : Bool := a.lt (.int 0)

/-- The double is an odd whole number. -/
def isOdd (x : Float) : Bool :=
  match truncate? x with
  | some n => isWhole x && n % 2 != 0
  | none => false

/-- The first double to the power of the second; `none` where the power is not real. Powers of
infinite and of negative numbers follow those of magnitudes, an odd exponent keeping the sign. -/
def power (x y : Float) : Except Fault (Option Float) :=
  if y == 0 then .ok (some 1)
  else if y.isInf then
    let size := x.abs
    if size == 1 then .ok (some 1)
    else if decide (0 < y) == decide (1 < size) then .ok (some y.abs)
    else .ok (some 0)
  else if x.isInf then
    if 0 < y then .ok (some (if isOdd y then x else x.abs))
    else .ok (some (if isOdd y && x < 0 then -0.0 else 0))
  else if x == 0 then
    if y < 0 then .error .zeroToNegativePower
    else .ok (some (if isOdd y then x else 0))
  else if x < 0 && !isWhole y then .ok none
  else
    let size := x.abs
    let result := if size == 1 then 1 else Float.pow size y
    if result.isInf then .error .tooLarge
    else .ok (some (if x < 0 && isOdd y then -result else result))

/-- The first number to the power of the second, as doubles. -/
def pow (a b : Number) : Except Fault (Option Number) := do
  let x ← a.toFloat
  let y ← b.toFloat
  return (← power x y).map .float

/-- Whole part of a finite number, toward zero. -/
def truncate? : Number → Option Int
  | .int n => some n
  | .float x => Numeral.truncate? x

end Number

namespace Value

/-- The number that plain decimal text writes, blanks around it aside. -/
def numberOfText (s : String) : Except Fault (Option Number) :=
  match DecimalText.read? (Text.stripChars s.toList) with
  | none => .ok none
  | some d =>
    if d.isWhole then
      if d.digits.length ≤ maxDigits then .ok (some (.int d.toInt)) else .error .digitLimit
    else .ok (some (.float d.toFloat))

/-- The number that a value counts as: booleans are 1 and 0, dates their serial numbers, and text
is read where it is plain decimal text. Blanks and doubles that are no numbers count as none. A
whole number has to be within the range of doubles; only text may write a larger one. -/
def number? : Value → Except Fault (Option Number)
  | .bool b => .ok (some (.int (if b then 1 else 0)))
  | .int n => if (ofInt? n).isSome then .ok (some (.int n)) else .error .tooLarge
  | .float x => .ok (if isNaN x then none else some (.float x))
  | .date d => .ok (some (.int d.serial))
  | .moment t =>
    if t.offset.isSome then .error .mixedClocks else .ok (t.serial?.map .float)
  | .text s => numberOfText s
  | .null | .list _ | .record _ => .ok none

/-- Nothing, or text of blanks. -/
def isBlank : Value → Bool
  | .null => true
  | .text s => Text.isBlankText s
  | _ => false

/-- The number for a text that counts as one, any other value unchanged. -/
def numberForText (v : Value) : Except Fault Value :=
  match v with
  | .text _ => do
    match ← v.number? with
    | some n => return n.toValue
    | none => return v
  | v => .ok v

end Value

end Spreadsheet
