import Spreadsheet.Reference.Coordinate
import Spreadsheet.Workbook.Basic

/-!
# Display grids

The display texts of a table as a rectangle: each row is filled up with empty texts to the length of
the longest one. It is written with tabs, or as comma-separated values.

A line of comma-separated values holds fields with commas between them. A field stands between quotes
where it is empty or holds a comma, a quote or the end of a line; a quote inside is written twice. The
first line names the columns; without columns there is that line alone, and it is empty.
-/

namespace Spreadsheet.Csv

/-- A character that has to stand between quotes. -/
def isSpecial (c : Char) : Bool := c == ',' || c == '"' || c == '\n' || c == '\r'

def doubleQuotes (cs : List Char) : List Char := cs.flatMap fun c => if c = '"' then ['"', '"'] else [c]

def field (s : String) : String :=
  let cs := s.toList
  if cs.isEmpty || cs.any isSpecial then String.ofList ('"' :: doubleQuotes cs ++ ['"']) else s

def line (fields : List String) : String := ",".intercalate (fields.map field) ++ "\n"

/-- The text of some rows under the names of their columns. -/
def write (columns : List String) (rows : List (List String)) : String :=
  if columns.isEmpty then "\n" else String.join ((columns :: rows).map line)

end Spreadsheet.Csv

namespace Spreadsheet.Table

/-- The length of the longest row. -/
def width (t : Table) : Nat := t.foldl (fun n row => max n row.length) 0

/-- The display texts of a row, filled up to a width. -/
def gridRow (width : Nat) (row : List Cell) : List String :=
  row.map (fun c => c.displayValue.getD "") ++ List.replicate (width - row.length) ""

def grid (t : Table) : List (List String) := t.map (gridRow (width t))

/-- The table as text: a line for each row, with tabs between the cells. -/
def tabbedLines (t : Table) : List String := (grid t).map fun row => "\t".intercalate row

/-- The table as comma-separated values, its columns named by their letters. -/
def csvText (t : Table) : String :=
  Csv.write ((List.range (width t)).map fun (n : Nat) => Reference.columnLetters n) (grid t)

end Spreadsheet.Table
