import Mathlib.Data.List.Forall2
import Spreadsheet.Event.Sink
import Spreadsheet.Value.Plain

/-!
# What becomes of a log

A log is used by choosing a directory, by emitting events to the directory that was chosen, by
writing events to the log of a directory, and by others who leave lines there that are no JSON. The
entries that such actions add to the log of a directory follow from the actions alone; what a log
holds, and what a reader finds there, is said in terms of them.
-/

namespace Spreadsheet

/-- The fields of an event that is logged at a time. -/
def Event.fieldsAt (e : Event) (time : String) : List (Value × Value) :=
  e.toFields ++ [(.text "ts", .text time)]

def Event.record (e : Event) (time : String) : Value := .record (e.fieldsAt time)

/-- The texts and values of an event are plain. -/
structure Event.Plain (e : Event) : Prop where
  names : (e.context.map Prod.fst).Nodup
  context : ∀ entry ∈ e.context, Text.HalvesApart entry.1 ∧ entry.2.Plain
  message : Text.HalvesApart e.message
  code : ∀ code, e.errorCode = some code → Text.HalvesApart code

/-- A line that readers of a log pass over: without the blanks at its ends it is no JSON. -/
structure Log.Ignored (line : String) : Prop where
  oneLine : ∀ c ∈ line.toList, c ≠ '\n' ∧ c ≠ '\r'
  rejected : Json.read (Text.strip line) = .error .malformed

/-- What is done to logs. -/
inductive LogAction
  | configure (directory : Option String)
  | emit (e : Event) (time : String)
  /-- An event is written to the log of a directory. -/
  | write (directory : String) (e : Event) (time : String)
  /-- A line is left in the log of a directory. -/
  | leave (directory : String) (line : String)

/-- Events are plain, and lines are ignored. -/
def LogAction.Readable : LogAction → Prop
  | .configure _ => True
  | .emit e time | .write _ e time => e.Plain ∧ Text.HalvesApart time
  | .leave _ line => Log.Ignored line

inductive LogEntry
  | event (e : Event) (time : String)
  | line (text : String)

namespace LogEntry

/-- The entry as it stands in a log. -/
def text : LogEntry → Except Json.WriteFault String
  | .event e time => e.logLine time
  | .line text => .ok (text ++ "\n")

/-- An event is plain, and a line is ignored. -/
def Readable : LogEntry → Prop
  | .event e time => e.Plain ∧ Text.HalvesApart time
  | .line text => Log.Ignored text

/-- A name passes a filter, which may be missing or empty. -/
def passesFilter (wanted : Option String) (name : String) : Bool :=
  wanted.all fun w => w == "" || w == name

/-- The record of an event that passes filters on level and type. -/
def found? (level type : Option String) : LogEntry → Option Value
  | .event e time =>
    if passesFilter level e.level.name && passesFilter type e.type.name then some (e.record time)
    else none
  | .line _ => none

end LogEntry

namespace Log

/-- The text is that of some entries, one after the other. -/
def Texts (entries : List LogEntry) (text : String) : Prop :=
  ∃ lines, List.Forall₂ (fun entry line => entry.text = .ok line) entries lines ∧
    text = String.join lines

/-- The text has a line for each of some entries, in order. -/
def Holds (text : String) (entries : List LogEntry) : Prop :=
  List.Forall₂ (fun entry line => entry.text = .ok (String.ofList line ++ "\n")) entries
    (lines text.toList) ∧ Texts entries text

end Log

namespace Logging

variable (s : Logging)

def SameDirectory (a b : String) : Prop := Files.key a = Files.key b

instance (a b : String) : Decidable (SameDirectory a b) := inferInstanceAs (Decidable (_ = _))

/-- The state with a directory chosen for events. -/
def inDirectory (directory : String) : Logging := { s with sink := some ⟨directory⟩ }

/-- The text of the log of a directory; there is none where nothing was logged. -/
def logText (directory : String) : String := (s.files.text? (Sink.path ⟨directory⟩)).getD ""

/-- Puts a text behind the log of a directory. -/
def leave (directory text : String) : Except FileFault Logging :=
  match s.files.append (Sink.path ⟨directory⟩) text with
  | .ok files => .ok { s with files := files }
  | .error f => .error f

/-- The state after an action. An action that fails changes nothing. -/
def act : LogAction → Logging
  | .configure directory => (s.configure directory).toOption.getD s
  | .emit e time => s.emit e time
  | .write directory e time =>
    (((s.inDirectory directory).write e time).toOption.map fun t => { s with files := t.files }).getD s
  | .leave directory line => (s.leave directory (line ++ "\n")).toOption.getD s

def actAll (actions : List LogAction) : Logging := actions.foldl act s

/-- What an action has to write, it writes. -/
def Writes : LogAction → Prop
  | .configure _ => True
  | .emit e time => s.sink = none ∨ (s.write e.prepare time).isOk = true
  | .write directory e time => ((s.inDirectory directory).write e time).isOk = true
  | .leave directory line => (s.leave directory (line ++ "\n")).isOk = true

def WritesAll : Logging → List LogAction → Prop
  | _, [] => True
  | s, a :: rest => s.Writes a ∧ WritesAll (s.act a) rest

/-- What an action adds to the log of a directory. -/
def added (directory : String) : LogAction → List LogEntry
  | .configure _ => []
  | .emit e time =>
    if s.sink.any fun sink => SameDirectory sink.directory directory then [.event e.prepare time] else []
  | .write other e time => if SameDirectory other directory then [.event e time] else []
  | .leave other line => if SameDirectory other directory then [.line line] else []

/-- What some actions add to the log of a directory. -/
def entries (directory : String) : Logging → List LogAction → List LogEntry
  | _, [] => []
  | s, a :: rest => s.added directory a ++ entries directory (s.act a) rest

end Logging

end Spreadsheet
