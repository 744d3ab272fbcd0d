import Spreadsheet.Value.Basic

/-!
# Cells and workbooks

A workbook is a list of tables, a table a list of rows of any lengths, a row a list of cells. A
cell has a raw value, which may be a formula, and the results of the last resolution.
-/

namespace Spreadsheet

/-- A cell of a table. -/
structure Cell where
  /-- What was entered: a plain value or the text of a formula. -/
  value : Value := .null
  /-- The number format for display. -/
  format : Option String := none
  /-- A resolution has set the results below. -/
  resolved : Bool := false
  resolvedValue : Value := .null
  displayValue : Option String := none
  textColor : Option String := none
  /-- Further properties, kept as they came. -/
  extras : List (String × Value) := []

instance : Inhabited Cell := ⟨{}⟩

/-- What the cell shows to a reader: the result of its resolution, else the raw value. -/
def Cell.content (c : Cell) : Value := if c.resolved then c.resolvedValue else c.value

abbrev Table := List (List Cell)

abbrev Workbook := List Table

/-- What a reference or a caller names a table by. -/
inductive TableId
  | index (n : Int)
  /-- A value of another kind, to which no table answers. -/
  | other (v : Value)

namespace Workbook

/-- Index of the table that a name stands for, where the workbook has it. -/
def tableIndex? (w : Workbook) : TableId → Option Nat
  | .index n => if 0 ≤ n ∧ n < w.length then some n.toNat else none
  | .other _ => none

def cell? (w : Workbook) (table row col : Nat) : Option Cell := do
  let rows ← w[table]?
  let cells ← rows[row]?
  cells[col]?

def cellsOf (w : Workbook) (table : Nat) : List Cell := (w[table]?.getD []).flatten

/-- The cells at some positions of a table, in the order of the positions; positions without a
cell are skipped. -/
def cellsAt (w : Workbook) (table : Nat) (positions : List (Nat × Nat)) : List Cell :=
  positions.filterMap fun p => w.cell? table p.1 p.2

def modifyCell (w : Workbook) (table row col : Nat) (f : Cell → Cell) : Workbook :=
  w.modify table fun rows => rows.modify row fun cells => cells.modify col f

theorem length_modifyCell (w : Workbook) (n row col : Nat) (f : Cell → Cell) :
    (w.modifyCell n row col f).length = w.length :=
  List.length_modify ..

theorem cell?_modifyCell (w : Workbook) (n row col n' row' col' : Nat) (f : Cell → Cell) :
    (w.modifyCell n row col f).cell? n' row' col' = (w.cell? n' row' col').map fun c =>
      if (n', row', col') = (n, row, col) then f c else c := by
  unfold cell? modifyCell
  rw [List.getElem?_modify]
  cases w[n']? with
  | none => rfl
  | some rows =>
    by_cases hn : n = n'
    · simp only [hn, Option.map_eq_map, Option.map_some, Option.bind_eq_bind, Option.bind_some,
        if_true]
      rw [List.getElem?_modify]
      cases rows[row']? with
      | none => rfl
      | some cells =>
        by_cases hrow : row = row'
        · simp only [hrow, Option.map_eq_map, Option.map_some, Option.bind_some, if_true]
          rw [List.getElem?_modify]
          simp [Prod.ext_iff, eq_comm]
        · simp [hrow, Ne.symm hrow]
    · simp [hn, Ne.symm hn]

theorem mem_cellsOf_of_cell? {w : Workbook} {table row col : Nat} {c : Cell}
    (h : w.cell? table row col = some c) : c ∈ w.cellsOf table := by
  simp only [cell?, Option.bind_eq_bind, Option.bind_eq_some_iff] at h
  obtain ⟨rows, hrows, cells, hcells, hc⟩ := h
  simp only [cellsOf, hrows, Option.getD_some, List.mem_flatten]
  exact ⟨cells, List.mem_of_getElem? hcells, List.mem_of_getElem? hc⟩

end Workbook

end Spreadsheet
