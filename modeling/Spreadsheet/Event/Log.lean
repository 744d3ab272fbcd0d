import Spreadsheet.Event.Basic
import Spreadsheet.Json.Reader
import Spreadsheet.Json.Writer

/-!
# The event log

A log is a file of lines, one JSON record for each event. `logLine` writes an event, `readEvents`
gives the records of a log with the most recent first, skipping lines that are no JSON.
-/

namespace Spreadsheet

namespace Event

def nameLe : Value → Value → Bool
  | .text a, .text b => decide (a ≤ b)
  | _, _ => true

mutual

/-- A value as it stands in a log: dates and moments are text, doubles that are not finite nothing,
and the fields of records are sorted by name. -/
def logValue : Value → Value
  | .float x => if x.isFinite then .float x else .null
  | .date d => .text d.isoText
  | .moment t => .text (t.isoText "T")
  | .list items => .list (logItems items)
  | .record fields => .record ((logFields fields).mergeSort fun a b => nameLe a.1 b.1)
  | v => v

def logItems : List Value → List Value
  | [] => []
  | v :: rest => logValue v :: logItems rest

def logFields : List (Value × Value) → List (Value × Value)
  | [] => []
  | (name, v) :: rest => (name, logValue v) :: logFields rest

end

/-- The record of an event, without its time. -/
def toFields (e : Event) : List (Value × Value) :=
  [(.text "context", .record (e.context.map fun entry => (.text entry.1, entry.2))),
   (.text "error_code", (e.errorCode.map Value.text).getD .null),
   (.text "event_type", .text e.type.name),
   (.text "level", .text e.level.name),
   (.text "message", .text e.message),
   (.text "schema_version", .int e.schemaVersion)]

/-- The line of an event in a log, `time` being the text of its time. -/
def logLine (e : Event) (time : String) : Except Json.WriteFault String := do
  let record := Value.record (e.toFields ++ [(.text "ts", .text time)])
  return (← Json.writeLine (logValue record)) ++ "\n"

end Event

namespace Log

/-- The lines of a text; a line ends with a line feed, a carriage return or both. -/
def lines (cs : List Char) : List (List Char) :=
  match cs with
  | [] => []
  | '\r' :: '\n' :: rest => [] :: lines rest
  | c :: rest =>
    if c = '\n' ∨ c = '\r' then [] :: lines rest
    else match lines rest with
      | [] => [[c]]
      | line :: more => (c :: line) :: more

inductive ReadFault
  /-- A line holds a whole number with too many digits. -/
  | digitLimit
  /-- A filter meets a line that is no record. -/
  | notRecord
deriving DecidableEq, Repr

/-- The values of the lines that are JSON, in order. -/
def valuesOf : List (List Char) → Except ReadFault (List Value)
  | [] => .ok []
  | line :: rest =>
    let text := Text.stripChars line
    if text.isEmpty then valuesOf rest
    else match Json.read (String.ofList text) with
      | .ok v => do return v :: (← valuesOf rest)
      | .error .malformed => valuesOf rest
      | .error .digitLimit => .error .digitLimit

/-- Keeps the records in which a field has a value. -/
def keep (name : String) (wanted : Value) : List Value → Except ReadFault (List Value)
  | [] => .ok []
  | .record fields :: rest => do
    let kept ← keep name wanted rest
    return if ((Value.field? fields name).getD .null).same wanted
      then .record fields :: kept else kept
  | _ :: _ => .error .notRecord

/-- Applies a filter that is given and not empty. -/
def keepIf (name : String) (wanted : Value) (events : List Value) :
    Except ReadFault (List Value) :=
  if wanted.isTrue then keep name wanted events else .ok events

/-- The first items up to a limit; a negative limit leaves that many off the end. -/
def takeLimit (limit : Int) (items : List Value) : List Value :=
  if 0 ≤ limit then items.take limit.toNat else items.take (items.length - limit.natAbs)

/-- The events of a log's text that pass the filters, most recent first, up to a limit. -/
def readEvents (text : String) (level type : Value) (limit : Int) :
    Except ReadFault (List Value) := do
  let events ← valuesOf (lines text.toList)
  let events ← keepIf "level" level events
  let events ← keepIf "event_type" type events
  return takeLimit limit events.reverse

end Log

end Spreadsheet
