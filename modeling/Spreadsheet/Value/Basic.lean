import Spreadsheet.Calendar.Moment
import Spreadsheet.Fault

/-!
# Values

A cell holds a value, and a formula evaluates to one: nothing, a boolean, a whole number of any
size, a double, a text, a date, a moment, a list, or a record of named values. Whole numbers and
doubles are different values. Four texts, the sentinels, stand for failed evaluations.
-/

namespace Spreadsheet

open Calendar

/-- The content of a cell or the result of a formula. -/
inductive Value
  | null
  | bool (b : Bool)
  | int (n : Int)
  | float (x : Float)
  | text (s : String)
  | date (d : Date)
  | moment (t : Moment)
  | list (items : List Value)
  /-- Fields in the order in which they were given. -/
  | record (fields : List (Value × Value))

instance : Inhabited Value := ⟨.null⟩

/-- The results of failed evaluations. -/
inductive Sentinel
  | error
  | reference
  | divisionByZero
  | circular
deriving DecidableEq, Repr

def Sentinel.text : Sentinel → String
  | .error => "#ERROR!"
  | .reference => "#REF!"
  | .divisionByZero => "#DIV/0!"
  | .circular => "#CIRCULAR!"

theorem Sentinel.text_injective : Function.Injective Sentinel.text := by
  intro j k h
  cases j <;> cases k <;> first | rfl | exact absurd h (by decide)

def Sentinel.value (s : Sentinel) : Value := .text s.text

theorem Sentinel.value_injective : Function.Injective Sentinel.value := fun _ _ h =>
  text_injective (Value.text.inj h)

def Sentinel.ofText? (s : String) : Option Sentinel :=
  [Sentinel.error, .reference, .divisionByZero, .circular].find? fun k => k.text == s

namespace Value

def sentinel? : Value → Option Sentinel
  | .text s => Sentinel.ofText? s
  | _ => none

def isSentinel (v : Value) : Bool := v.sentinel?.isSome

/-- The text of a formula: a text that starts with `=`. -/
def formula? : Value → Option String
  | .text s => if s.toList.head? = some '=' then some s else none
  | _ => none

def isFormula (v : Value) : Bool := v.formula?.isSome

/-- Whether a value counts as true: zero and everything empty does not. -/
def isTrue : Value → Bool
  | .null => false
  | .bool b => b
  | .int n => n != 0
  | .float x => x != 0
  | .text s => s != ""
  | .date _ => true
  | .moment _ => true
  | .list items => !items.isEmpty
  | .record fields => !fields.isEmpty

end Value

end Spreadsheet
