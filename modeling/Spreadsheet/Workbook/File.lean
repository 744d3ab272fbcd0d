import Spreadsheet.Files
import Spreadsheet.Json.Reader
import Spreadsheet.Workbook.Shape
import Spreadsheet.Yaml.Reader

/-!
# Workbook files

A workbook file is JSON or YAML, as the end of its name tells.
-/

namespace Spreadsheet.Workbook

inductive FileFormat
  | json
  | yaml
deriving DecidableEq, Repr

/-- The format for the end of a file's name, in either case of its letters. -/
def FileFormat.ofSuffix? (suffix : String) : Option FileFormat :=
  if suffix.toLower = ".json" then some .json
  else if suffix.toLower = ".yaml" ∨ suffix.toLower = ".yml" then some .yaml
  else none

inductive DataFault
  | missing
  | unsupported (suffix : String)
  | json (f : Json.ReadFault)
  | yaml (f : Yaml.Fault)
deriving DecidableEq, Repr

def dataOfFile (fs : Files) (path : String) : Except DataFault Value :=
  match fs.readText? path, FileFormat.ofSuffix? (Files.suffix path) with
  | none, _ => .error .missing
  | some _, none => .error (.unsupported (Files.suffix path))
  | some text, some .json => (Json.read text).mapError .json
  | some text, some .yaml => (Yaml.read text).mapError .yaml

end Spreadsheet.Workbook
