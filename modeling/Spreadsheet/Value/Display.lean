import Spreadsheet.Numeral.Decimal
import Spreadsheet.Value.Basic

/-!
# Display of values

`Value.display` is the plain text of a value, used where no number format applies. The items of
lists and records are shown as literals: text in quotes, booleans by name, dates by their parts.
Both are total apart from whole numbers with more digits than text may have.
-/

namespace Spreadsheet

open Calendar Numeral

def integerText (n : Int) : Except Fault String :=
  match integerText? n with
  | some s => .ok s
  | none => .error .digitLimit

def dateLiteral (d : Date) : String :=
  let c := d.civil
  "datetime.date(" ++ toString c.year ++ ", " ++ toString c.month ++ ", " ++ toString c.day ++ ")"

/-- A span of time as a literal: whole days, possibly negative, and seconds of a day. -/
def spanLiteral (span : Int) : String :=
  let days := span.fdiv 86400
  let seconds := span.fmod 86400
  let parts := (if days = 0 then [] else ["days=" ++ toString days]) ++
    (if seconds = 0 then [] else ["seconds=" ++ toString seconds])
  "datetime.timedelta(" ++ ", ".intercalate parts ++ ")"

def offsetLiteral (offset : Int) : String :=
  if offset = 0 then "datetime.timezone.utc"
  else "datetime.timezone(" ++ spanLiteral offset ++ ")"

/-- A moment as a literal, without a second and microsecond of zero. -/
def momentLiteral (t : Moment) : String :=
  let c := t.date.civil
  let (hour, minute, second, micro) := t.clock
  let small := if micro ≠ 0 then [second, micro] else if second ≠ 0 then [second] else []
  let parts := ([c.year, c.month, c.day, hour, minute] ++ small).map toString ++
    (t.offset.map fun o => "tzinfo=" ++ offsetLiteral o).toList
  "datetime.datetime(" ++ ", ".intercalate parts ++ ")"

namespace Value

mutual

/-- A value as it stands inside a list. -/
def literal : Value → Except Fault String
  | .null => .ok "None"
  | .bool b => .ok (if b then "True" else "False")
  | .int n => integerText n
  | .float x => .ok (shortest x)
  | .text s => .ok (Text.quoted s)
  | .date d => .ok (dateLiteral d)
  | .moment t => .ok (momentLiteral t)
  | .list items => do
    return "[" ++ ", ".intercalate (← literals items) ++ "]"
  | .record fields => do
    return "\x7b" ++ ", ".intercalate (← fieldLiterals fields) ++ "\x7d"

def literals : List Value → Except Fault (List String)
  | [] => .ok []
  | v :: rest => do
    let s ← v.literal
    return s :: (← literals rest)

/-- The literals of some fields, each with a colon between name and value. -/
def fieldLiterals : List (Value × Value) → Except Fault (List String)
  | [] => .ok []
  | (name, v) :: rest => do
    let k ← name.literal
    let s ← v.literal
    return (k ++ ": " ++ s) :: (← fieldLiterals rest)

end

/-- A value inside running text: text without quotes, a moment with a blank between date and time,
any other value as its literal or, for a date, in the ISO form. -/
def plain : Value → Except Fault String
  | .text s => .ok s
  | .date d => .ok d.isoText
  | .moment t => .ok (t.isoText " ")
  | v => v.literal

/-- Text of a double: a whole number below `10 ^ 15` in full, any other with ten digits. -/
def displayFloat (x : Float) : String :=
  match truncate? x with
  | some n =>
    if isWhole x && n.natAbs < Nat.pow 10 15 then toString n else significant x 10
  | none => significant x 10

/-- Plain text of a value. -/
def display : Value → Except Fault String
  | .null => .ok ""
  | .bool b => .ok (if b then "TRUE" else "FALSE")
  | .float x => .ok (displayFloat x)
  | .moment t => .ok (t.isoText "T")
  | v => v.plain

end Value

end Spreadsheet
