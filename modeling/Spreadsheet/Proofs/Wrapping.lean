import Mathlib.Data.List.Basic
import Spreadsheet.Fault
import Spreadsheet.Workbook.Shape

/-!
# When wrapping tables in a record changes nothing

The rows of a single table are taken for tables exactly if the first table that has rows starts with a
row given as nothing (`isSingleTable_iff`); else a record reads as the list that its field holds. Where
they are taken for tables nothing is refused, and there is one table whose rows are the tables that
were meant (`readTables_misread`), which is never what the list reads as (`ofValue_wrapped_iff`).
-/

namespace Spreadsheet.Workbook

variable {tables : List Value}

/-! ## One table or many -/

theorem startsWithNothing_cons_empty :
    StartsWithNothing (.list [] :: tables) ↔ StartsWithNothing tables := by
  constructor
  · rintro ⟨_ | empty, rows, more, h⟩
    · cases h
    · exact ⟨empty, rows, more, (List.cons.inj h).2⟩
  · rintro ⟨empty, rows, more, rfl⟩
    exact ⟨empty + 1, rows, more, rfl⟩

theorem startsWithNothing_cons_rows {row : Value} {rows : List Value} :
    StartsWithNothing (.list (row :: rows) :: tables) ↔ row = .null := by
  constructor
  · rintro ⟨_ | empty, rows, more, h⟩
    · cases h
      rfl
    · cases h
  · rintro rfl
    exact ⟨0, rows, tables, rfl⟩

theorem isSingleTable_iff (h : ∀ t ∈ tables, IsTableData t) :
    isSingleTable tables = true ↔ StartsWithNothing tables := by
  induction tables with
  | nil =>
    refine iff_of_false Bool.false_ne_true ?_
    rintro ⟨empty, rows, more, heq⟩
    simp at heq
  | cons t rest ih =>
    rw [List.forall_mem_cons] at h
    obtain ⟨⟨hrows⟩, hrest⟩ := h
    next rows =>
    cases rows with
    | nil => exact (ih hrest).trans startsWithNothing_cons_empty.symm
    | cons row rows =>
      rw [startsWithNothing_cons_rows]
      cases hrows row List.mem_cons_self with
      | nothing => exact iff_of_true rfl rfl
      | cells _ => exact iff_of_false Bool.false_ne_true Value.noConfusion

/-! ## Tables taken for rows -/

/-- A value that is no record is the plain value of a cell. -/
theorem readCellValue_rowData {row : Value} (h : IsRowData row) :
    readCellValue row = .ok { value := row } := by
  cases h <;> rfl

/-- A table that is taken for a row has its rows as cells. -/
theorem readRow_tableData {t : Value} (h : IsTableData t) (index : Nat) :
    readRow index t = .ok (plainCells t) := by
  obtain ⟨hrows⟩ := h
  exact mapM_eq_ok_map fun row hrow => readCellValue_rowData (hrows row hrow)

theorem readTables_misread (h : ∀ t ∈ tables, IsTableData t) :
    readTables 0 [.list tables] = .ok [tables.map plainCells] := by
  have htable : readTable 0 (.list tables) = .ok (tables.map plainCells) :=
    mapM_eq_ok_map fun t ht => readRow_tableData (h t ht) 0
  unfold readTables
  rw [htable]
  rfl

/-! ## Tables read as tables -/

theorem length_of_readTables {index : Nat} {w : Workbook} (h : readTables index tables = .ok w) :
    w.length = tables.length := by
  induction tables generalizing index w with
  | nil =>
    cases h
    rfl
  | cons t rest ih =>
    obtain ⟨table, -, h⟩ := exists_of_bind h
    obtain ⟨more, hmore, h⟩ := exists_of_bind h
    cases h
    simp [ih hmore]

/-- A row given as nothing has no cells. -/
theorem head_of_readTable_null {index : Nat} {rows : List Value} {table : Table}
    (h : readTable index (.list (.null :: rows)) = .ok table) : table.head? = some [] := by
  have h : (.null :: rows).mapM (readRow index) = .ok table := h
  rw [List.mapM_cons] at h
  obtain ⟨cells, hcells, h⟩ := exists_of_bind h
  obtain ⟨more, -, h⟩ := exists_of_bind h
  cases hcells
  cases h
  rfl

/-- Tables are never read as the one table that they are taken for. -/
theorem readTables_ne_misread (h : StartsWithNothing tables) (index : Nat) :
    readTables index tables ≠ .ok [tables.map plainCells] := by
  intro hread
  obtain ⟨empty, rows, more, rfl⟩ := h
  have hlength := length_of_readTables hread
  -- There is one table, so it is the one that starts with a row given as nothing.
  simp only [List.length_append, List.length_replicate, List.length_cons,
    List.length_nil] at hlength
  have hempty : empty = 0 := by omega
  have hmore : more = [] := List.eq_nil_of_length_eq_zero (by omega)
  subst hempty hmore
  obtain ⟨table, htable, hread⟩ := exists_of_bind hread
  have hhead := head_of_readTable_null htable
  cases hread
  simp [plainCells] at hhead

/-- **Wrapping tables.** A record whose field `tables` holds some tables reads as the list of the tables
does, or is refused for the same cause, exactly if the first table that has rows does not start with a
row given as nothing. Where it does, the record reads as one table with the tables for its rows and
with their rows for its cells. -/
theorem ofValue_wrapped_iff {fields : List (Value × Value)}
    (hfield : Value.field? fields "tables" = some (.list tables))
    (htables : ∀ t ∈ tables, IsTableData t) :
    (ofValue (.record fields) = ofValue (.list tables) ↔ ¬ StartsWithNothing tables) ∧
      (StartsWithNothing tables → ofValue (.record fields) = .ok [tables.map plainCells]) := by
  have hread : ofValue (.record fields) =
      if isSingleTable tables then readTables 0 [.list tables] else readTables 0 tables := by
    unfold ofValue
    dsimp only
    rw [hfield]
    cases tables <;> rfl
  rw [hread, readTables_misread htables]
  by_cases hstart : StartsWithNothing tables
  · rw [if_pos ((isSingleTable_iff htables).2 hstart)]
    refine ⟨iff_of_false (fun heq => ?_) (fun hnot => hnot hstart), fun _ => rfl⟩
    exact readTables_ne_misread hstart 0 heq.symm
  · rw [if_neg (fun hsingle => hstart ((isSingleTable_iff htables).1 hsingle))]
    exact ⟨iff_of_true rfl hstart, fun h => absurd h hstart⟩

/-- Tables of which the first one has no rows and the second one a row given as nothing behind a row
with a faulty cell. -/
def uneven : List Value :=
  [.list [], .list [.list [.int 1, .record [(.text "resolved", .int 2)]], .null]]

/-- The cause for which such tables are refused is the same in a record. -/
theorem ofValue_wrapped_uneven :
    Value.field? [(.text "tables", .list uneven)] "tables" = some (.list uneven) ∧
      (∀ t ∈ uneven, IsTableData t) ∧ ¬ StartsWithNothing uneven ∧
      ofValue (.record [(.text "tables", .list uneven)]) =
        .error (.cell [⟨"resolved", .boolUnreadable⟩]) := by
  have htables : ∀ t ∈ uneven, IsTableData t := by
    have hcells : ∀ c ∈ [Value.int 1, .record [(.text "resolved", .int 2)]], ∀ items,
        c ≠ .list items := by
      simp
    intro t ht
    simp only [uneven, List.mem_cons, List.not_mem_nil, or_false] at ht
    obtain rfl | rfl := ht
    · exact .rows (by simp)
    · refine .rows fun row hrow => ?_
      simp only [List.mem_cons, List.not_mem_nil, or_false] at hrow
      obtain rfl | rfl := hrow
      · exact .cells hcells
      · exact .nothing
  have hstart : ¬ StartsWithNothing uneven := by
    unfold uneven
    rw [startsWithNothing_cons_empty, startsWithNothing_cons_rows]
    exact Value.noConfusion
  refine ⟨rfl, htables, hstart, ?_⟩
  rw [((ofValue_wrapped_iff rfl htables).1).2 hstart]
  rfl

/-- A list of one table, whose first row is given as nothing and whose second row has a cell. -/
def nothingFirst : List Value := [.list [.null, .list [.int 1]]]

/-- In a record the rows of this table become the cells of a single row. -/
theorem nothingFirst_misread :
    (∀ t ∈ nothingFirst, IsTableData t) ∧
      ofValue (.list nothingFirst) = .ok [[[], [{ value := .int 1 }]]] ∧
      ofValue (.record [(.text "tables", .list nothingFirst)]) =
        .ok [[[{ value := .null }, { value := .list [.int 1] }]]] := by
  refine ⟨fun t ht => ?_, rfl, rfl⟩
  cases List.mem_singleton.1 ht
  refine .rows fun row hrow => ?_
  simp only [List.mem_cons, List.not_mem_nil, or_false] at hrow
  obtain rfl | rfl := hrow
  · exact .nothing
  · exact .cells (by simp)

end Spreadsheet.Workbook
