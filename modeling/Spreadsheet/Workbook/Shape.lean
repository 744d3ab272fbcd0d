import Spreadsheet.Workbook.Record

/-!
# Shapes of workbooks

A workbook comes as a list of tables, or as a record whose field `tables` holds a list of tables
or a single table. A table is a list of rows, a row is nothing or a list of cells, and a cell is a
record of its properties or a plain value.

Whether the list in a record is a single table is decided by the first table that has rows. A table
that starts with a row given as nothing then looks like a row that starts with a cell.
-/

namespace Spreadsheet

/-- Why data is no workbook. -/
inductive ShapeFault
  | noTables
  | tablesNotList
  | tableNotList (index : Nat)
  | rowNotList (table : Nat)
  | unsupported (kind : String)
  | cell (faults : List FieldFault)
deriving DecidableEq, Repr

/-- The text of a fault; faulty cells have none here. -/
def ShapeFault.message : ShapeFault → String
  | .noTables => "Workbook mapping must have a 'tables' key"
  | .tablesNotList => "'tables' must be a list"
  | .tableNotList index => "Table " ++ toString index ++ " must be a list of rows"
  | .rowNotList table => "Table " ++ toString table ++ " has a row that is not a list"
  | .unsupported kind => "Unsupported workbook type: " ++ kind
  | .cell _ => ""

/-- The name of a value's kind. -/
def Value.kindName : Value → String
  | .null => "NoneType"
  | .bool _ => "bool"
  | .int _ => "int"
  | .float _ => "float"
  | .text _ => "str"
  | .date _ => "date"
  | .moment _ => "datetime"
  | .list _ => "list"
  | .record _ => "dict"

namespace Workbook

/-- A cell from a record of its properties or a plain value. -/
def readCellValue : Value → Except ShapeFault Cell
  | .record fields =>
    match Cell.ofRecord fields with
    | .ok c => .ok c
    | .error faults => .error (.cell faults)
  | v => .ok { value := v }

/-- The first item that counts as true tells whether some tables are the rows of a single one: it
then does not start with a list. -/
def isSingleTable : List Value → Bool
  | [] => false
  | t :: rest =>
    if !t.isTrue then isSingleTable rest
    else match t with
      | .list (.list _ :: _) => false
      | _ => true

/-- The cells of a row of the table with an index. -/
def readRow (table : Nat) : Value → Except ShapeFault (List Cell)
  | .null => .ok []
  | .list cells => cells.mapM readCellValue
  | _ => .error (.rowNotList table)

/-- The rows of the table with an index. -/
def readTable (index : Nat) : Value → Except ShapeFault Table
  | .list rows => rows.mapM (readRow index)
  | _ => .error (.tableNotList index)

/-- The tables from an index on. -/
def readTables (index : Nat) : List Value → Except ShapeFault Workbook
  | [] => .ok []
  | t :: rest => do
    let table ← readTable index t
    return table :: (← readTables (index + 1) rest)

/-- The workbook that some data describes. -/
def ofValue : Value → Except ShapeFault Workbook
  | .list tables => readTables 0 tables
  | .record fields =>
    match Value.field? fields "tables" with
    | none => .error .noTables
    | some v =>
      if !v.isTrue then .ok []
      else match v with
        | .list tables =>
          if isSingleTable tables then readTables 0 [.list tables] else readTables 0 tables
        | _ => .error .tablesNotList
  | v => .error (.unsupported v.kindName)

/-- The records of a workbook's cells. -/
def toValue (w : Workbook) : Value :=
  .list (w.map fun table => .list (table.map fun row => .list (row.map Cell.toRecord)))

/-! ## Data as it is given -/

/-- A row as it is given: nothing, or a list of cells, none of which is a list itself. -/
inductive IsRowData : Value → Prop
  | nothing : IsRowData .null
  | cells {cells : List Value} : (∀ c ∈ cells, ∀ items, c ≠ .list items) → IsRowData (.list cells)

/-- A table as it is given: a list of rows. -/
inductive IsTableData : Value → Prop
  | rows {rows : List Value} : (∀ row ∈ rows, IsRowData row) → IsTableData (.list rows)

/-- The first table that has rows starts with a row given as nothing. -/
def StartsWithNothing (tables : List Value) : Prop :=
  ∃ empty rows more, tables = List.replicate empty (.list []) ++ .list (.null :: rows) :: more

/-- The items of a list as the plain values of cells. -/
def plainCells : Value → List Cell
  | .list items => items.map fun v => { value := v }
  | _ => []

end Workbook

end Spreadsheet
