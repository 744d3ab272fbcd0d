import Spreadsheet.Event.Log
import Spreadsheet.Files

/-!
# Logging to a directory

Events go to the file `events.ndjson` of a directory, once one has been chosen. Emitting never
fails: without a directory the event is dropped, and so is an event that cannot be written.
Writing directly takes the event as it is and reports faults.
-/

namespace Spreadsheet

def logFileName : String := "events.ndjson"

/-- Where events go: into the log of a directory. -/
structure Sink where
  directory : String

def Sink.path (s : Sink) : String := Files.join s.directory logFileName

/-- The files, and the place where events go, if they go anywhere. -/
structure Logging where
  files : Files := {}
  sink : Option Sink := none

/-- Why an event was not written, or a log not read. -/
inductive LogFault
  | noSink
  | file (f : FileFault)
  | digitLimit
  | fieldName
  | notRecord
deriving DecidableEq, Repr

namespace Logging

/-- Chooses the directory for events, or none. The directory is made where it does not exist. -/
def configure (s : Logging) : Option String → Except LogFault Logging
  | none => .ok { s with sink := none }
  | some directory =>
    match s.files.makeDirectories directory with
    | .ok files => .ok { files := files, sink := some ⟨directory⟩ }
    | .error f => .error (.file f)

/-- Writes an event as it is. -/
def write (s : Logging) (e : Event) (time : String) : Except LogFault Logging :=
  match s.sink with
  | none => .error .noSink
  | some sink =>
    match e.logLine time with
    | .error .digitLimit => .error .digitLimit
    | .error .fieldName => .error .fieldName
    | .ok line =>
      match s.files.append sink.path line with
      | .ok files => .ok { s with files := files }
      | .error f => .error (.file f)

/-- Emits an event: cuts and checks it, and writes it where that is possible. -/
def emit (s : Logging) (e : Event) (time : String) : Logging :=
  match s.write e.prepare time with
  | .ok s => s
  | .error _ => s

def emitAll (s : Logging) (events : List Event) (time : String) : Logging :=
  events.foldl (fun s e => s.emit e time) s

/-- The logged events that pass the filters, most recent first; none where there is no log. -/
def read (s : Logging) (level type : Value) (limit : Int) : Except LogFault (List Value) :=
  match s.sink with
  | none => .error .noSink
  | some sink =>
    match s.files.text? sink.path with
    | none => .ok []
    | some text =>
      match Log.readEvents text level type limit with
      | .ok events => .ok events
      | .error .digitLimit => .error .digitLimit
      | .error .notRecord => .error .notRecord

end Logging

end Spreadsheet
