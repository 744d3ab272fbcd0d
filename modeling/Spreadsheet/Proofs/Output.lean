import Spreadsheet.Command.Run
import Spreadsheet.Proofs.Listing

/-!
# Results as input

The result of a pass is a record that a workbook can be read from again. Reading gives the cells back
in the same places with all that they hold: a property that is left out where it is not set is read as
not set (`ofRecord_properties`), and the tables of a result are never taken for the rows of a single
one (`isSingleTable_tables`).
-/

namespace Spreadsheet

open Workbook

/-! ## The record of a cell -/

namespace Cell

variable {c : Cell}

theorem usedName_eq (fields : List (Value × Value)) (wire plain : String) :
    usedName fields wire plain = wire ∨ usedName fields wire plain = plain := by
  unfold usedName
  split
  · exact .inl rfl
  · exact .inr rfl

theorem field?_extraFields {s : String} (h : ∀ e ∈ c.extras, e.1 ≠ s) :
    Value.field? (extraFields c.extras) s = none := by
  unfold Value.field? extraFields
  rw [Option.map_eq_none_iff, List.find?_eq_none]
  intro f hf heq
  obtain ⟨e, he, rfl⟩ := List.mem_map.1 hf
  exact h e he (beq_iff_eq.1 heq)

/-- Extras under other names do not hide or replace a property. -/
theorem property?_properties (h : c.ExtrasApart) (name : String × String)
    (hname : name ∈ propertyNames) :
    property? (c.properties ++ extraFields c.extras) name.1 name.2 =
      property? c.properties name.1 name.2 := by
  unfold property?
  rw [Value.field?_append, Value.field?_append,
    field?_extraFields fun e he => (h e he _ hname).1,
    field?_extraFields fun e he => (h e he _ hname).2, Option.or_none, Option.or_none]

/-- The fields of a cell's properties stand under their names on the wire. -/
theorem exists_name_of_mem_properties {f : Value × Value} (hf : f ∈ c.properties) :
    ∃ name ∈ propertyNames, f.1 = .text name.1 := by
  unfold properties at hf
  simp only [List.mem_append, List.mem_cons, List.not_mem_nil, or_false, Option.mem_toList,
    Option.map_eq_some_iff] at hf
  rcases hf with ((rfl | ⟨s, -, rfl⟩) | rfl | rfl | rfl) | ⟨s, -, rfl⟩
  · exact ⟨("value", "value"), by decide, rfl⟩
  · exact ⟨("excelFormat", "excel_format"), by decide, rfl⟩
  · exact ⟨("resolved", "resolved"), by decide, rfl⟩
  · exact ⟨("resolvedValue", "resolved_value"), by decide, rfl⟩
  · exact ⟨("displayValue", "display_value"), by decide, rfl⟩
  · exact ⟨("textColor", "text_color"), by decide, rfl⟩

/-- The extras are what is read of the record besides the properties. -/
theorem extrasOf_properties (h : c.ExtrasApart) :
    extrasOf (c.properties ++ extraFields c.extras) = c.extras := by
  have hproperties : ∀ f ∈ c.properties, ∃ name, f.1 = .text name ∧ (propertyNames.map fun p =>
      usedName (c.properties ++ extraFields c.extras) p.1 p.2).contains name = true := by
    intro f hf
    obtain ⟨name, hname, hf1⟩ := exists_name_of_mem_properties hf
    have hmem : (Value.text name.1, f.2) ∈ c.properties ++ extraFields c.extras := by
      rw [← hf1]
      exact List.mem_append_left _ hf
    have hused : usedName (c.properties ++ extraFields c.extras) name.1 name.2 = name.1 :=
      if_pos (Value.isSome_field?_of_mem hmem)
    exact ⟨name.1, hf1, List.contains_iff_mem.2 (List.mem_map.2 ⟨name, hname, hused⟩)⟩
  have hothers : ∀ e ∈ c.extras, ¬ (propertyNames.map fun p =>
      usedName (c.properties ++ extraFields c.extras) p.1 p.2).contains e.1 = true := by
    intro e he hmem
    obtain ⟨name, hname, heq⟩ := List.mem_map.1 (List.contains_iff_mem.1 hmem)
    have hapart := h e he name hname
    rcases usedName_eq (c.properties ++ extraFields c.extras) name.1 name.2 with hused | hused
    · exact hapart.1 (heq.symm.trans hused)
    · exact hapart.2 (heq.symm.trans hused)
  unfold extrasOf
  dsimp only
  rw [List.filterMap_append]
  refine congrArg₂ (· ++ ·) (List.filterMap_eq_nil_iff.2 fun f hf => ?_)
    (List.filterMap_map.trans ((List.filterMap_congr fun e he => ?_).trans List.filterMap_some))
  · obtain ⟨name, hf1, hused⟩ := hproperties f hf
    rw [hf1]
    exact if_pos hused
  · exact if_neg (hothers e he)

theorem nameFaults_properties : nameFaults (c.properties ++ extraFields c.extras) = [] := by
  unfold nameFaults
  rw [List.filterMap_eq_nil_iff]
  intro f hf
  rcases List.mem_append.1 hf with hf | hf
  · obtain ⟨name, -, hf1⟩ := exists_name_of_mem_properties hf
    rw [hf1]
  · obtain ⟨e, -, rfl⟩ := List.mem_map.1 hf
    rfl

/-- Each property is found under its name; format and color only where they are set. -/
theorem property?_value (c : Cell) : property? c.properties "value" "value" = some c.value ∧
    property? c.properties "resolved" "resolved" = some (.bool c.resolved) ∧
    property? c.properties "resolvedValue" "resolved_value" = some c.resolvedValue := by
  cases hf : c.format <;> simp [property?, properties, Value.field?, hf]

theorem property?_optional (c : Cell) :
    property? c.properties "excelFormat" "excel_format" = c.format.map .text ∧
    property? c.properties "displayValue" "display_value" =
      some ((c.displayValue.map .text).getD .null) ∧
    property? c.properties "textColor" "text_color" = c.textColor.map .text := by
  cases hf : c.format <;> cases hc : c.textColor <;>
    simp [property?, properties, Value.field?, hf, hc]

/-- A text that may be missing is read as it was given, be it left out or written as nothing. -/
theorem asOptionalText_map (s : Option String) :
    ((s.map Value.text).map Value.asOptionalText).getD (.ok none) = .ok s ∧
      Value.asOptionalText ((s.map Value.text).getD .null) = .ok s := by
  cases s <;> exact ⟨rfl, rfl⟩

/-- A cell is read from its record. -/
theorem ofRecord_properties (h : c.ExtrasApart) :
    Cell.ofRecord (c.properties ++ extraFields c.extras) = .ok c := by
  obtain ⟨hvalue, hresolved, hresolvedValue⟩ := property?_value c
  obtain ⟨hformat, hshown, hcolor⟩ := property?_optional c
  rw [← property?_properties h ("value", "value") (by decide)] at hvalue
  rw [← property?_properties h ("resolved", "resolved") (by decide)] at hresolved
  rw [← property?_properties h ("resolvedValue", "resolved_value") (by decide)]
    at hresolvedValue
  rw [← property?_properties h ("excelFormat", "excel_format") (by decide)] at hformat
  rw [← property?_properties h ("displayValue", "display_value") (by decide)] at hshown
  rw [← property?_properties h ("textColor", "text_color") (by decide)] at hcolor
  unfold property? at hvalue hresolved
  rw [Option.or_self] at hvalue hresolved
  unfold Cell.ofRecord
  dsimp only at *
  rw [hvalue, hresolved, hformat, hshown, hcolor, hresolvedValue, nameFaults_properties,
    extrasOf_properties h, (asOptionalText_map c.format).1, (asOptionalText_map c.textColor).1,
    Option.map_some, Option.map_some, Option.getD_some, (asOptionalText_map c.displayValue).2]
  rfl

end Cell

/-! ## The record of a workbook -/

theorem mapM_map_of_read {α β ε : Type} {read : β → Except ε α} {write : α → β} {l : List α}
    (h : ∀ a ∈ l, read (write a) = .ok a) : (l.map write).mapM read = .ok l := by
  have hread : ∀ a ∈ l, (read ∘ write) a = .ok (id a) := h
  rw [List.mapM_map, mapM_eq_ok_map hread, List.map_id]

namespace Workbook

theorem readTables_map {write : Table → Value} {w : Workbook}
    (h : ∀ rows ∈ w, ∀ index, readTable index (write rows) = .ok rows) (index : Nat) :
    readTables index (w.map write) = .ok w := by
  induction w generalizing index with
  | nil => rfl
  | cons rows rest ih =>
    rw [List.map_cons, readTables, h rows List.mem_cons_self,
      ih fun rows hrows => h rows (List.mem_cons_of_mem _ hrows)]
    rfl

/-- The first table with a row has a list in the place of a cell. -/
theorem isSingleTable_tables (w : Workbook) : isSingleTable (w.map fun rows =>
    .list (rows.map fun cells => .list (cells.map Cell.toRecord))) = false := by
  induction w with
  | nil => rfl
  | cons rows rest ih =>
    cases rows with
    | nil => exact ih
    | cons cells rows => rfl

/-- Reading the records of the cells of a workbook gives the workbook. -/
theorem readTables_toRecord {w : Workbook} (h : w.ExtrasApart) :
    readTables 0 (w.map fun rows =>
      .list (rows.map fun cells => .list (cells.map Cell.toRecord))) = .ok w := by
  refine readTables_map (fun rows hrows index => ?_) 0
  refine mapM_map_of_read fun cells hcells => mapM_map_of_read fun c hc => ?_
  obtain ⟨n, hn⟩ := List.mem_iff_getElem?.1 hrows
  obtain ⟨row, hrow⟩ := List.mem_iff_getElem?.1 hcells
  obtain ⟨col, hcol⟩ := List.mem_iff_getElem?.1 hc
  have hcell : w.cell? n row col = some c := by
    unfold cell?
    simp [hn, hrow, hcol]
  unfold Cell.toRecord readCellValue
  dsimp only
  rw [Cell.ofRecord_properties (h n row col c hcell)]

/-- A record whose field `tables` has the records of a workbook's cells is data of the workbook. -/
theorem ofValue_of_tables {w : Workbook} (h : w.ExtrasApart) {fields : List (Value × Value)}
    (hfield : Value.field? fields "tables" = some w.toValue) :
    Workbook.ofValue (.record fields) = .ok w := by
  unfold Workbook.ofValue
  dsimp only
  rw [hfield]
  cases w with
  | nil => rfl
  | cons rows rest =>
    have hsingle := isSingleTable_tables (rows :: rest)
    have hread := readTables_toRecord h
    unfold Workbook.toValue
    dsimp only
    rw [hsingle, hread]
    rfl

end Workbook

/-- **Results as input.** The record of a result, read as the data of a workbook, gives the tables of
the result. -/
theorem ofValue_resultRecord (r : Resolver) {w : Workbook} (hextras : w.ExtrasApart)
    (h : (w.resolve r).fault = none) :
    Workbook.ofValue (Command.resultRecord (w.resolve r)) = .ok (w.resolve r).workbook :=
  ofValue_of_tables (extrasApart_resolve h hextras) rfl

/-- The row of cells with extras as it comes from outside. -/
def annotatedData : Value :=
  .list [.list [.list
    [.record [(.text "value", .text forwardText), (.text "row", .int 9), (.text "note", .text "sum")],
     .record [(.text "value", .int 5), (.text "source", .list [.null])]]]]

/-- Data with extras, its result, and the same tables again. -/
theorem ofValue_resultRecord_annotated :
    Workbook.ofValue annotatedData = .ok annotated ∧ annotated.ExtrasApart ∧
    (annotated.resolve firstDay).fault = none ∧
    Workbook.ofValue (Command.resultRecord (annotated.resolve firstDay)) =
      .ok (pair ((Resolver.store annotatedFormula (.int 5)).showing ⟨"5", none⟩)
        ((Resolver.store annotatedNumber (.int 5)).showing ⟨"5", none⟩)) := by
  obtain ⟨hdone, hleft⟩ := annotated_resolve firstDay
  have hread := ofValue_resultRecord firstDay annotated_extrasApart hdone
  rw [hleft] at hread
  exact ⟨rfl, annotated_extrasApart, hdone, hread⟩

end Spreadsheet
