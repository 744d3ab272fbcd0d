import Spreadsheet.Files
import Spreadsheet.Value.Field
import Spreadsheet.Yaml.Reader

/-!
# Settings

Settings are a record of named values. A settings file is a YAML mapping whose entries replace and
extend the default settings; an empty file changes nothing.
-/

namespace Spreadsheet

def settingsFileName : String := "gridcalc.yaml"

/-- Settings as fields of a record. -/
structure Settings where
  fields : List (Value × Value)

inductive SettingsFault
  /-- The file at a path holds something else than a mapping. -/
  | notMapping (path : String)
  | yaml (f : Yaml.Fault)
deriving DecidableEq, Repr

namespace Settings

def scalingName : String := "percent_display_scaling"

def logDirectoryName : String := "log_dir"

/-- The settings without a settings file: percentages are scaled and events are not logged. -/
def standard : Settings :=
  ⟨[(.text scalingName, .bool true), (.text logDirectoryName, .null),
    (.text "logging_fsync", .bool false)]⟩

def update (s : Settings) (fields : List (Value × Value)) : Settings :=
  ⟨fields.foldl (fun fs f => Value.setField fs f.1 f.2) s.fields⟩

/-- The results of formulas under a percent format are divided by 100 before display. -/
def scaling (s : Settings) : Bool :=
  ((Value.field? s.fields scalingName).map Value.isTrue).getD true

def logDirectory (s : Settings) : Value :=
  (Value.field? s.fields logDirectoryName).getD .null

/-- The settings that the text of a file at a path gives. -/
def ofText (path text : String) : Except SettingsFault Settings :=
  match Yaml.read text with
  | .error f => .error (.yaml f)
  | .ok v =>
    match v with
    | .record fields => .ok (standard.update fields)
    | v => if v.isTrue then .error (.notMapping path) else .ok standard

/-- The path of the settings file: a path itself, or in the directory that it leads to. -/
def filePath (fs : Files) (path : String) : String :=
  if fs.isDirectory path then Files.join path settingsFileName else Files.tidy path

/-- Loads the settings from a file or a directory; there need not be a file. -/
def load (fs : Files) (path : String) : Except SettingsFault Settings :=
  let path := filePath fs path
  match fs.readText? path with
  | some text => ofText path text
  | none => .ok standard

end Settings

end Spreadsheet
