import Spreadsheet.Value.Display
import Spreadsheet.Value.Schema
import Spreadsheet.Workbook.Basic

/-!
# Cells as records

Outside a workbook a cell is a record. Each of its properties has a name on the wire; a property
with a compound name may also be given under its plain name. A fault names a property as it was
given. Names that are no property are kept as extras. A formula cell is listed with its position,
which takes the place of extras of the same names; an extra under the plain name of a property takes
the place of that property there.
-/

namespace Spreadsheet

/-- The value of a property: under its name on the wire, else under its plain name. -/
def property? (fields : List (Value × Value)) (wire plain : String) : Option Value :=
  (Value.field? fields wire).or (Value.field? fields plain)

def usedName (fields : List (Value × Value)) (wire plain : String) : String :=
  if (Value.field? fields wire).isSome then wire else plain

namespace Cell

def propertyNames : List (String × String) :=
  [("value", "value"), ("excelFormat", "excel_format"), ("resolved", "resolved"),
   ("resolvedValue", "resolved_value"), ("displayValue", "display_value"),
   ("textColor", "text_color")]

/-- The fields of a record that are no properties, as extras. -/
def extrasOf (fields : List (Value × Value)) : List (String × Value) :=
  let used := propertyNames.map fun p => usedName fields p.1 p.2
  fields.filterMap fun f => match f.1 with
    | .text name => if used.contains name then none else some (name, f.2)
    | _ => none

/-- The issues of names that are no text. -/
def nameFaults (fields : List (Value × Value)) : List FieldFault :=
  fields.filterMap fun f => match f.1 with
    | .text _ => none
    | name => some ⟨(name.plain.toOption).getD "", .nameUnreadable⟩

/-- Reads a cell from a record. -/
def ofRecord (fields : List (Value × Value)) : Except (List FieldFault) Cell :=
  let optionalText := fun (wire plain : String) =>
    ((property? fields wire plain).map Value.asOptionalText).getD (.ok none)
  let format := optionalText "excelFormat" "excel_format"
  let resolved := ((Value.field? fields "resolved").map Value.asBool).getD (.ok false)
  let shown := optionalText "displayValue" "display_value"
  let color := optionalText "textColor" "text_color"
  match format, resolved, shown, color, nameFaults fields with
  | .ok format, .ok resolved, .ok shown, .ok color, [] =>
    .ok {
      value := (Value.field? fields "value").getD .null
      format := format
      resolved := resolved
      resolvedValue := (property? fields "resolvedValue" "resolved_value").getD .null
      displayValue := shown
      textColor := color
      extras := extrasOf fields }
  | format, resolved, shown, color, names =>
    .error (faultOf (usedName fields "excelFormat" "excel_format") format ++
      faultOf "resolved" resolved ++ faultOf (usedName fields "displayValue" "display_value") shown ++
      faultOf (usedName fields "textColor" "text_color") color ++ names)

/-- The properties of a cell under their names on the wire; format and color only where set. -/
def properties (c : Cell) : List (Value × Value) :=
  [(.text "value", c.value)] ++
    (c.format.map fun s => (Value.text "excelFormat", Value.text s)).toList ++
    [(.text "resolved", .bool c.resolved), (.text "resolvedValue", c.resolvedValue),
     (.text "displayValue", (c.displayValue.map Value.text).getD .null)] ++
    (c.textColor.map fun s => (Value.text "textColor", Value.text s)).toList

def extraFields (extras : List (String × Value)) : List (Value × Value) :=
  extras.map fun e => (.text e.1, e.2)

def toRecord (c : Cell) : Value := .record (c.properties ++ extraFields c.extras)

end Cell

/-- A resolved formula cell with its position. -/
structure FormulaCell where
  cell : Cell
  table : Nat
  row : Nat
  col : Nat

namespace FormulaCell

def extra? (c : Cell) (name : String) : Option Value :=
  (c.extras.find? fun e => e.1 == name).map Prod.snd

/-- The names of extras that do not survive beside a position and the plain names of properties. -/
def takenNames : List String :=
  ["table", "row", "col", "excel_format", "resolved_value", "display_value", "text_color"]

/-- The cell listed with its position. -/
def ofCell (c : Cell) (table row col : Nat) : Except (List FieldFault) FormulaCell :=
  let optionalText := fun (plain : String) (current : Option String) =>
    ((extra? c plain).map Value.asOptionalText).getD (.ok current)
  let format := optionalText "excel_format" c.format
  let shown := optionalText "display_value" c.displayValue
  let color := optionalText "text_color" c.textColor
  match format, shown, color with
  | .ok format, .ok shown, .ok color =>
    .ok {
      cell := { c with
        format := format
        resolvedValue := (extra? c "resolved_value").getD c.resolvedValue
        displayValue := shown
        textColor := color
        extras := c.extras.filter fun e => !takenNames.contains e.1 }
      table := table
      row := row
      col := col }
  | format, shown, color =>
    .error (faultOf "excel_format" format ++ faultOf "display_value" shown ++
      faultOf "text_color" color)

def toRecord (f : FormulaCell) : Value :=
  .record (f.cell.properties ++
    [(.text "table", .int f.table), (.text "row", .int f.row), (.text "col", .int f.col)] ++
    Cell.extraFields f.cell.extras)

end FormulaCell

end Spreadsheet
