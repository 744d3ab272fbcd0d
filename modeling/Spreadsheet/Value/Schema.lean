import Spreadsheet.Numeral.WholeText
import Spreadsheet.Text.Surrogate
import Spreadsheet.Value.Field
import Spreadsheet.Text.Upper

/-!
# Fields of a given kind

Records from outside are read field by field, each as a value of its kind. Some conversions are
allowed: words and the numbers 0 and 1 for booleans, numeric text and whole doubles for whole
numbers. What a field holds instead of its kind is an issue; a record has an issue for every field
that does not fit.
-/

namespace Spreadsheet

open Numeral Text

/-- What is wrong with a field. -/
inductive FieldIssue
  | missing
  | textExpected
  /-- The text holds half of a surrogate pair. -/
  | textBroken
  | boolExpected
  /-- The text or number stands for no boolean. -/
  | boolUnreadable
  | intExpected
  | intUnreadable
  /-- The number has a fraction. -/
  | intFractional
  | intTooLong
  | notFinite
  | recordExpected
  /-- The text is none of the allowed words. -/
  | wordUnknown
  /-- The name of the field is no text. -/
  | nameUnreadable
deriving DecidableEq, Repr

structure FieldFault where
  field : String
  issue : FieldIssue
deriving DecidableEq, Repr

/-- The fault of a field that was not read. -/
def faultOf (field : String) {α : Type} : Except FieldIssue α → List FieldFault
  | .ok _ => []
  | .error issue => [⟨field, issue⟩]

namespace Value

def asText : Value → Except FieldIssue String
  | .text s => .ok s
  | _ => .error .textExpected

def asOptionalText : Value → Except FieldIssue (Option String)
  | .null => .ok none
  | .text s => .ok (some s)
  | _ => .error .textExpected

def boolWords : List (String × Bool) :=
  [("0", false), ("off", false), ("f", false), ("false", false), ("n", false), ("no", false),
   ("1", true), ("on", true), ("t", true), ("true", true), ("y", true), ("yes", true)]

/-- A whole number within a machine word. -/
def inWord (n : Int) : Bool := decide (-0x8000000000000000 ≤ n ∧ n < 0x8000000000000000)

/-- The whole number that a whole double is, strictly between the bounds of a machine word. -/
def wordOf? (x : Float) : Option Int :=
  if isWhole x then
    (truncate? x).filter fun n => decide (-0x8000000000000000 < n ∧ n < 0x8000000000000000)
  else none

def boolOfInt (n : Int) : Except FieldIssue Bool :=
  if n = 0 then .ok false else if n = 1 then .ok true else .error .boolUnreadable

/-- A boolean, a word for one, or 0 or 1. -/
def asBool : Value → Except FieldIssue Bool
  | .bool b => .ok b
  | .text s =>
    if hasHalf s then .error .textBroken
    else match boolWords.find? fun w => w.1.toList == s.toList.map lowerAscii with
    | some w => .ok w.2
    | none => .error .boolUnreadable
  | .int n => if inWord n then boolOfInt n else .error .boolExpected
  | .float x =>
    match wordOf? x with
    | some n => boolOfInt n
    | none => .error .boolExpected
  | _ => .error .boolExpected

def intOfText (s : String) : Except FieldIssue Int :=
  if hasHalf s then .error .textBroken
  else match WholeText.read s.toList with
  | .ok n => .ok n
  | .error .unreadable => .error .intUnreadable
  | .error .tooLong => .error .intTooLong

/-- A whole number, numeric text or a whole double. -/
def asInt : Value → Except FieldIssue Int
  | .bool b => .ok (if b then 1 else 0)
  | .int n => .ok n
  | .text s => intOfText s
  | .float x =>
    match decode x with
    | .finite .. =>
      if !isWhole x then .error .intFractional
      else match wordOf? x with
        | some n => .ok n
        | none => .error .intTooLong
    | _ => .error .notFinite
  | _ => .error .intExpected

/-- A record whose names are text. -/
def asFields : Value → Except FieldIssue (List (String × Value))
  | .record fields =>
    fields.mapM fun f => match f.1 with
      | .text name => .ok (name, f.2)
      | _ => .error .nameUnreadable
  | _ => .error .recordExpected

end Value

end Spreadsheet
