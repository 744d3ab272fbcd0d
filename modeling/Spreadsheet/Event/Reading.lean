import Spreadsheet.Event.History

/-!
# What a log of any text holds

A line of a log may be anything. Without the blanks at its ends it is a JSON value, or it is passed
over, or it holds a whole number with more digits than text may have. Events are records; what a
reader is after are the records of a log, whatever else stands there.
-/

namespace Spreadsheet

def Value.isRecord : Value → Bool
  | .record _ => true
  | _ => false

namespace Log

/-- What a line holds between the blanks at its ends. -/
def lineValue (line : List Char) : Except Json.ReadFault Value :=
  Json.read (String.ofList (Text.stripChars line))

/-- A whole number in the line has more digits than text may have. -/
def Overlong (line : List Char) : Prop := lineValue line = .error .digitLimit

/-- The values of the lines that are JSON, in order. -/
def said (text : String) : List Value :=
  (lines text.toList).filterMap fun line => (lineValue line).toOption

/-- A filter asks for something: it is given and not empty. -/
def Asks (wanted : Option String) : Prop := ∃ w, wanted = some w ∧ w ≠ ""

/-- A record passes a filter: its field with a name is the text that the filter asks for. -/
def passes (name : String) (wanted : Option String) : Value → Bool
  | .record fields => wanted.all fun w => w == "" || match Value.field? fields name with
    | some (.text s) => s == w
    | _ => false
  | _ => false

/-- The records of a log that pass the filters, the last ones first, up to a limit. -/
def records (text : String) (level type : Option String) (limit : Nat) : List Value :=
  ((said text).filter fun v => passes "level" level v && passes "event_type" type v).reverse.take
    limit

/-- Every line can be read, and the values that reading comes to are records: all of them where a
filter asks for something, else the last ones up to the limit. -/
structure Foreseen (text : String) (level type : Option String) (limit : Nat) : Prop where
  readable : ∀ line ∈ lines text.toList, ¬ Overlong line
  filtered : Asks level ∨ Asks type → ∀ v ∈ said text, v.isRecord
  last : ∀ v ∈ (said text).reverse.take limit, v.isRecord

/-- What reading a log of any text comes to. -/
inductive Outcome (text : String) (level type : Option String) (limit : Nat) :
    Except LogFault (List Value) → Prop
  /-- One line that cannot be read, and nothing is. -/
  | overlong : (∃ line ∈ lines text.toList, Overlong line) →
      Outcome text level type limit (.error .digitLimit)
  /-- A filter meets a value that is no record. -/
  | notRecord : (∀ line ∈ lines text.toList, ¬ Overlong line) → Asks level ∨ Asks type →
      (∃ v ∈ said text, v.isRecord = false) → Outcome text level type limit (.error .notRecord)
  /-- All values are records. -/
  | allRecords : (∀ line ∈ lines text.toList, ¬ Overlong line) → (∀ v ∈ said text, v.isRecord) →
      Outcome text level type limit (.ok (records text level type limit))
  /-- Without filters all values are taken for events. -/
  | anyValues : (∀ line ∈ lines text.toList, ¬ Overlong line) → ¬ (Asks level ∨ Asks type) →
      Outcome text level type limit (.ok ((said text).reverse.take limit))

end Log

end Spreadsheet
