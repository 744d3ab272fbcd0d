import Spreadsheet.Command.Run

/-!
# The program

The outer layer: it reads the files that a request needs, carries the request out, writes the files
that have changed and prints what there is to print.
-/

namespace Spreadsheet.Program

open Command

/-- The number of 1970-01-01. -/
def unixDay : Nat := 719163

/-- Seconds since 1970-01-01 and microseconds of the current one, by the time at which the running
process was listed. -/
def now : IO (Nat × Nat) := do
  let process ← IO.FS.realPath "/proc/self"
  let time := (← process.metadata).modified
  return (time.sec.toNat, time.nsec.toNat / 1000)

/-- The clock at a number of seconds since 1970-01-01 and some microseconds. -/
def clockAt (seconds micros : Nat) : Clock :=
  let today := (Calendar.Date.ofDay? (unixDay + seconds / 86400 : Nat)).getD .first
  let rest := seconds % 86400
  let two := Calendar.paddedText 2
  ⟨today, today.isoText ++ "T" ++ two (rest / 3600) ++ ":" ++ two (rest / 60 % 60) ++ ":" ++
    two (rest % 60) ++ "." ++ Calendar.paddedText 6 micros ++ "Z"⟩

/-- Takes a file or directory of the disk into the files. -/
def load (files : Files) (path : String) : IO Files := do
  let place := (← IO.currentDir) / path
  if ← place.isDir then
    match files.makeDirectories path with
    | .ok files => return files
    | .error _ => return files
  else if ← place.pathExists then return files.put path (← IO.FS.readFile place)
  else return files

def pathsOf : Request → List String
  | .resolve o =>
    let settings := o.settings.getD (Files.parent o.workbook)
    [o.workbook, settings, Files.join settings settingsFileName] ++ o.csvDirectory.toList
  | .eval o => o.workbook.toList
  | .version | .help _ => []

/-- The path of the event log that a request adds to. -/
def logPath? (files : Files) : Request → Option String
  | .resolve o =>
    match Settings.load files (o.settings.getD (Files.parent o.workbook)) with
    | .ok s => match s.logDirectory with
      | .text directory => some (Files.join directory logFileName)
      | _ => none
    | .error _ => none
  | _ => none

/-- The files that the words of a command line speak of. -/
def loadFor (words : List String) : IO Files := do
  match Request.ofWords words with
  | .error _ => return {}
  | .ok request =>
    let files ← (pathsOf request).foldlM load {}
    match logPath? files request with
    | some path => load files path
    | none => return files

/-- Writes the directories and files that have changed. -/
def save (before after : Files) : IO Unit := do
  for directory in after.directories do
    if !before.directories.contains directory then IO.FS.createDirAll directory
  for (path, text) in after.texts do
    if before.text? path != some text then IO.FS.writeFile path text

/-- What is said of an early end. -/
def endingText : Ending → String
  | .usage f => "Error: " ++ f.message
  | .refused r => "Error: " ++ r.headline ++ r.detail.getD ""
  | .failed (.fault f) => "Failed: " ++ f.message
  | .failed _ => "Failed"

end Spreadsheet.Program

open Spreadsheet Program in
/-- Carries out what the command line asks for. -/
def main (words : List String) : IO UInt32 := do
  let before ← loadFor words
  let (seconds, micros) ← now
  let outcome := Command.run (clockAt seconds micros) words before
  save before outcome.files
  (← IO.getStdout).putStr outcome.output
  match outcome.ending with
  | none => pure ()
  | some ending => (← IO.getStderr).putStrLn (endingText ending)
  return UInt32.ofNat outcome.exitCode
