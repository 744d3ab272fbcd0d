import Spreadsheet.Workbook.Pass

/-!
# The color of a cell over time

A cell is given values and formats and is resolved, again and again, each time perhaps over another
workbook and with another formatter. A resolution writes the color that the formatter returns. Where
it returns none, the cell keeps the color that it has. The definitions here collect the colors that
are returned on the way.
-/

namespace Spreadsheet

/-- The color that the formatter returns when a cell of the table with an index is resolved. There
is none where the cell has no format or cannot be resolved, and an empty color counts as none. -/
def Resolver.colorFor (r : Resolver) (w : Workbook) (table : Nat) (c : Cell) : Option String :=
  match r.stored w table c with
  | .error _ => none
  | .ok v => (r.presented (store c v)).toOption.bind Shown.color

namespace Cell

/-- What can happen to a cell. -/
inductive Change
  /-- Another value is entered. -/
  | value (v : Value)
  | format (f : Option String)
  /-- The cell is resolved as one of the table with an index. -/
  | resolution (r : Resolver) (w : Workbook) (table : Nat)

/-- The cell after a change. A resolution that fails leaves what it had set before. -/
def Change.apply (c : Cell) : Change → Cell
  | .value v => { c with value := v }
  | .format f => { c with format := f }
  | .resolution r w table => (r.resolveCell w table c).1

/-- The color that the formatter returns in a change. -/
def Change.color? (c : Cell) : Change → Option String
  | .resolution r w table => r.colorFor w table c
  | _ => none

/-- The cell after some changes, one after the other. -/
def after (c : Cell) (changes : List Change) : Cell := changes.foldl Change.apply c

/-- The colors that the formatters return over some changes, in order. -/
def colorsOver (c : Cell) : List Change → List String
  | [] => []
  | change :: rest => (change.color? c).toList ++ colorsOver (change.apply c) rest

end Cell

end Spreadsheet
