import Spreadsheet.Text.Surrogate
import Spreadsheet.Value.Display

/-!
# Writing JSON

A value is written on one line, or with every item and field on a line of its own, indented by two
blanks for each level. Text is written in ASCII, doubles with the fewest digits that read back.
Dates and moments are written as text. Names of fields are text; numbers, booleans and nothing are
made text first, other names are a fault.
-/

namespace Spreadsheet.Json

open Numeral

def escapedUnit (n : Nat) : List Char := '\\' :: 'u' :: Text.hexText 4 n

/-- A character inside a string. -/
def stringChar (c : Char) : List Char :=
  match c with
  | '"' => ['\\', '"']
  | '\\' => ['\\', '\\']
  | '\n' => ['\\', 'n']
  | '\r' => ['\\', 'r']
  | '\t' => ['\\', 't']
  | '\x08' => ['\\', 'b']
  | '\x0c' => ['\\', 'f']
  | c =>
    let n := c.toNat
    if 0x20 ≤ n ∧ n < 0x7f then [c]
    else if n < 0x10000 then escapedUnit n
    else match Text.half? c with
      | some half => escapedUnit half
      | none =>
        let (high, low) := Text.halvesOf c
        escapedUnit high ++ escapedUnit low

def stringText (s : String) : String :=
  String.ofList ('"' :: s.toList.flatMap stringChar ++ ['"'])

/-- A double; infinities and what is no number have names. -/
def floatText (x : Float) : String :=
  match decode x with
  | .nan => "NaN"
  | .infinite negative => if negative then "-Infinity" else "Infinity"
  | .finite .. => shortest x

inductive WriteFault
  | digitLimit
  /-- The name of a field is of a kind that has no text. -/
  | fieldName
deriving DecidableEq, Repr

def intText (n : Int) : Except WriteFault String :=
  match integerText? n with
  | some s => .ok s
  | none => .error .digitLimit

/-- The name of a field as text. -/
def nameText : Value → Except WriteFault String
  | .text s => .ok s
  | .int n => intText n
  | .float x => .ok (floatText x)
  | .bool b => .ok (if b then "true" else "false")
  | .null => .ok "null"
  | _ => .error .fieldName

/-- Where line breaks go. -/
inductive Style
  | oneLine
  /-- A line for each item and field. -/
  | indented

def lineStart (depth : Nat) : String := "\n" ++ String.ofList (List.replicate (2 * depth) ' ')

/-- Some texts between brackets, at a depth. -/
def Style.enclose (style : Style) (depth : Nat) (first last : String) (parts : List String) :
    String :=
  if parts.isEmpty then first ++ last
  else
    match style with
    | .oneLine => first ++ ", ".intercalate parts ++ last
    | .indented =>
      first ++ lineStart (depth + 1) ++ ("," ++ lineStart (depth + 1)).intercalate parts ++
        lineStart depth ++ last

mutual

/-- A value at a depth. -/
def writeAt (style : Style) (depth : Nat) : Value → Except WriteFault String
  | .null => .ok "null"
  | .bool b => .ok (if b then "true" else "false")
  | .int n => intText n
  | .float x => .ok (floatText x)
  | .text s => .ok (stringText s)
  | .date d => .ok (stringText d.isoText)
  | .moment t => .ok (stringText (t.isoText " "))
  | .list items => do
    return style.enclose depth "[" "]" (← writeItems style (depth + 1) items)
  | .record fields => do
    return style.enclose depth "\x7b" "\x7d" (← writeFields style (depth + 1) fields)

def writeItems (style : Style) (depth : Nat) : List Value → Except WriteFault (List String)
  | [] => .ok []
  | v :: rest => do
    let s ← writeAt style depth v
    return s :: (← writeItems style depth rest)

/-- Some fields at a depth. -/
def writeFields (style : Style) (depth : Nat) :
    List (Value × Value) → Except WriteFault (List String)
  | [] => .ok []
  | (name, v) :: rest => do
    let k ← nameText name
    let s ← writeAt style depth v
    return (stringText k ++ ": " ++ s) :: (← writeFields style depth rest)

end

/-- A value on one line. -/
def writeLine (v : Value) : Except WriteFault String := writeAt .oneLine 0 v

/-- A value with a line for each item and field. -/
def writeIndented (v : Value) : Except WriteFault String := writeAt .indented 0 v

end Spreadsheet.Json
