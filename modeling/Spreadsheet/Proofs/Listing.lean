import Spreadsheet.Proofs.Staleness
import Spreadsheet.Workbook.Report

/-!
# What a pass leaves and lists

Resolving a cell writes that cell and no other, and what it writes are the results: the value that was
entered, the format and the extras stay (`resolvedFrom_of_done`). From cell to cell a pass keeps the
shape of the workbook, and its listing has the cells with formulas as the pass leaves them, each one
once and in order (`resolve_lists`).
-/

namespace Spreadsheet

open Workbook

/-! ## The shape of a workbook -/

theorem map_modify_of_kept {α β : Type} {g : α → β} {f : α → α} (h : ∀ a, g (f a) = g a)
    (l : List α) (i : Nat) : (l.modify i f).map g = l.map g := by
  refine List.ext_getElem? fun j => ?_
  rw [List.getElem?_map, List.getElem?_map, List.getElem?_modify]
  cases l[j]? with
  | none => rfl
  | some a =>
    by_cases hij : i = j
    · simp [hij, h]
    · simp [hij]

namespace Workbook

theorem shape_modifyCell (w : Workbook) (n row col : Nat) (f : Cell → Cell) :
    (w.modifyCell n row col f).shape = w.shape :=
  map_modify_of_kept (fun _ => map_modify_of_kept (fun _ => List.length_modify ..) _ _) _ _

end Workbook

namespace Resolver

variable (r : Resolver) (w : Workbook)

theorem shape_resolveAt (p : Nat × Nat × Nat) : (r.resolveAt w p).shape = w.shape := by
  unfold resolveAt
  dsimp only
  split
  · rfl
  · exact shape_modifyCell ..

theorem shape_resolveAll (order : List (Nat × Nat × Nat)) :
    (r.resolveAll w order).shape = w.shape := by
  induction order generalizing w with
  | nil => rfl
  | cons p rest ih => exact (ih _).trans (r.shape_resolveAt w p)

/-! ## One cell -/

variable {r w} {n : Nat} {c c' : Cell}

/-- A cell that is resolved without a fault keeps what was entered in it. -/
theorem resolvedFrom_of_done (h : r.resolveCell w n c = (c', none)) : c'.ResolvedFrom c := by
  obtain ⟨v, s, hv, -, rfl⟩ := r.resolveCell_done.1 h
  refine ⟨rfl, rfl, rfl, rfl, fun hplain => ?_⟩
  have hnone : c.value.formula? = none := by simpa [Value.isFormula] using hplain
  unfold stored at hv
  rw [hnone] at hv
  exact (Except.ok.inj hv).symm

end Resolver

namespace Resolution

/-- With or without a fault, a step of a pass writes no cell but the one that it visits. -/
theorem visit_cell?_of_ne (r : Resolver) (s : Resolution) {p q : Nat × Nat × Nat} (h : q ≠ p) :
    (visit r s p).workbook.cell? q.1 q.2.1 q.2.2 = s.workbook.cell? q.1 q.2.1 q.2.2 := by
  by_cases hs : s.fault = none
  · rw [workbook_visit hs, r.resolveAt_cell?]
    simp only [if_neg h, Option.map_id']
  · rw [visit_of_fault hs]

end Resolution

/-! ## The listing -/

namespace Cell

variable {c : Cell} {p : Nat × Nat × Nat}

theorem extra?_of_extrasApart (h : c.ExtrasApart) (name : String × String)
    (hname : name ∈ propertyNames) : FormulaCell.extra? c name.2 = none := by
  unfold FormulaCell.extra?
  rw [Option.map_eq_none_iff, List.find?_eq_none]
  intro e he heq
  exact (h e he _ hname).2 (beq_iff_eq.1 heq)

/-- Without extras under the names of properties a cell is listed as it is. -/
theorem ofCell_of_extrasApart (h : c.ExtrasApart) :
    FormulaCell.ofCell c p.1 p.2.1 p.2.2 = .ok (c.listedAt p) := by
  have hnames : ∀ e ∈ c.extras,
      FormulaCell.takenNames.contains e.1 = positionNames.contains e.1 := by
    intro e he
    have hapart := h e he
    simp only [propertyNames, List.forall_mem_cons] at hapart
    simp [FormulaCell.takenNames, positionNames, hapart]
  have hextras : (c.extras.filter fun e => !FormulaCell.takenNames.contains e.1) =
      c.extras.filter fun e => !positionNames.contains e.1 :=
    List.filter_congr fun e he => by rw [hnames e he]
  have hformat := extra?_of_extrasApart h ("excelFormat", "excel_format") (by decide)
  have hvalue := extra?_of_extrasApart h ("resolvedValue", "resolved_value") (by decide)
  have hshown := extra?_of_extrasApart h ("displayValue", "display_value") (by decide)
  have hcolor := extra?_of_extrasApart h ("textColor", "text_color") (by decide)
  unfold FormulaCell.ofCell
  dsimp only at *
  rw [hformat, hvalue, hshown, hcolor, hextras]
  rfl

end Cell

namespace Resolution

variable {w : Workbook}

theorem formulas_noted (s : Resolution) {c : Cell} (h : c.ExtrasApart) (p : Nat × Nat × Nat) :
    (s.noted c p).formulas = s.formulas ++ (c.listed? p).toList := by
  unfold noted Cell.listed? Value.isFormula
  cases c.value.formula? with
  | none => simp
  | some formula =>
    unfold record
    rw [Cell.ofCell_of_extrasApart h]
    cases c.resolvedValue.sentinel? <;> simp

/-- Listing the cells at some positions adds an entry for each of them that has a formula. -/
theorem formulas_notedAll (s : Resolution) (h : w.ExtrasApart) (order : List (Nat × Nat × Nat)) :
    (s.notedAll w order).formulas = s.formulas ++
      order.filterMap fun p => (w.cell? p.1 p.2.1 p.2.2).bind fun c => c.listed? p := by
  induction order generalizing s with
  | nil => exact (List.append_nil _).symm
  | cons p rest ih =>
    cases hc : w.cell? p.1 p.2.1 p.2.2 with
    | none => rw [notedAll_of_none hc, ih, List.filterMap_cons_none (by rw [hc]; rfl)]
    | some c =>
      rw [notedAll_of_some hc, ih, formulas_noted s (h _ _ _ _ hc), List.filterMap_cons, hc]
      cases hl : c.listed? p <;> simp [hl]

end Resolution

namespace Workbook

variable {r : Resolver} {w : Workbook}

/-- The entries for the cells at the positions of a pass are a listing. -/
theorem lists_filterMap (w : Workbook) :
    w.Lists (w.positions.filterMap fun p => (w.cell? p.1 p.2.1 p.2.2).bind fun c => c.listed? p) where
  ordered := by
    refine w.pairwise_positions.filterMap _ fun p q hpq f hf g hg => ?_
    obtain ⟨c, -, hc⟩ := Option.bind_eq_some_iff.1 hf
    obtain ⟨d, -, hd⟩ := Option.bind_eq_some_iff.1 hg
    unfold Cell.listed? at hc hd
    split at hc <;> cases hc
    split at hd <;> cases hd
    exact hpq
  mem_iff f := by
    simp only [List.mem_filterMap, Option.bind_eq_some_iff, Cell.listed?, Option.ite_none_right_eq_some,
      Option.some.injEq]
    constructor
    · rintro ⟨p, -, c, hc, hformula, rfl⟩
      exact ⟨p, c, hc, hformula, rfl⟩
    · rintro ⟨p, c, hc, hformula, rfl⟩
      exact ⟨p, mem_positions.2 (by rw [hc]; rfl), c, hc, hformula, rfl⟩

theorem extrasApart_resolve (h : (w.resolve r).fault = none) (hextras : w.ExtrasApart) :
    (w.resolve r).workbook.ExtrasApart := by
  intro n row col c' hc'
  obtain ⟨c, v, hc, -, hd, -⟩ := exists_of_resolve_cell? h hc'
  unfold Cell.ExtrasApart
  rw [(r.resolvedFrom_of_done hd).extras]
  exact hextras n row col c hc

theorem resolve_formulas (h : (w.resolve r).fault = none)
    (hextras : (w.resolve r).workbook.ExtrasApart) :
    (w.resolve r).workbook.Lists (w.resolve r).formulas := by
  have hpass := resolve_fault_iff.1 h
  have hlisted := Resolution.formulas_notedAll w.begun hextras w.positions
  have hformulas : (w.resolve r).formulas =
      (w.begun.notedAll (w.resolve r).workbook w.positions).formulas := by
    rw [resolve_workbook h]
    exact (congrArg Resolution.formulas (resolve_eq hpass)).trans rfl
  rw [hformulas, hlisted, ← positions_resolve h]
  exact lists_filterMap _

end Workbook

/-- **What a pass leaves and lists.** A step of a pass writes no cell but the one that it visits. A
pass without a fault keeps the shape of the workbook and resolves every cell, which keeps what was
entered in it, and the cells with formulas are listed as the pass leaves them. -/
theorem resolve_lists (r : Resolver) (w : Workbook) (hextras : w.ExtrasApart) :
    (∀ s p q, q ≠ p → (Resolution.visit r s p).workbook.cell? q.1 q.2.1 q.2.2 =
      s.workbook.cell? q.1 q.2.1 q.2.2) ∧
    ((w.resolve r).fault = none →
      (w.resolve r).workbook.shape = w.shape ∧
      (∀ n row col c, w.cell? n row col = some c →
        ∃ c', (w.resolve r).workbook.cell? n row col = some c' ∧ c'.ResolvedFrom c) ∧
      (w.resolve r).workbook.Lists (w.resolve r).formulas) := by
  refine ⟨fun s _ _ h => Resolution.visit_cell?_of_ne r s h, fun h => ⟨?_, ?_, ?_⟩⟩
  · rw [resolve_workbook h]
    exact r.shape_resolveAll w _
  · intro n row col c hc
    obtain ⟨v, c', -, hd, -, hc'⟩ := resolve_cell? h hc
    exact ⟨c', hc', r.resolvedFrom_of_done hd⟩
  · exact resolve_formulas h (extrasApart_resolve h hextras)

/-! ## A row with extras -/

/-- A formula that passes the second cell of a row on. One of its extras has the name of a
coordinate. -/
def annotatedFormula : Cell :=
  { value := .text forwardText, extras := [("row", .int 9), ("note", .text "sum")] }

/-- A number with an extra. -/
def annotatedNumber : Cell := { value := .int 5, extras := [("source", .list [.null])] }

/-- A row of cells with extras. -/
def annotated : Workbook := pair annotatedFormula annotatedNumber

theorem annotated_extrasApart : annotated.ExtrasApart := by
  intro n row col c hc
  rcases mem_pair hc with ⟨-, rfl⟩ | ⟨-, rfl⟩ <;>
    simp [Cell.ExtrasApart, Cell.propertyNames, annotatedFormula, annotatedNumber]

/-- What a pass leaves of the row. -/
theorem annotated_resolve (r : Resolver) : (annotated.resolve r).fault = none ∧
    (annotated.resolve r).workbook =
      pair ((Resolver.store annotatedFormula (.int 5)).showing ⟨"5", none⟩)
        ((Resolver.store annotatedNumber (.int 5)).showing ⟨"5", none⟩) := by
  have hplain : annotatedNumber.value.formula? = none := rfl
  have shows : ∀ c : Cell, c.format = none →
      r.presented (Resolver.store c (.int 5)) = .ok ⟨"5", none⟩ := fun c hc => by
    rw [presented_of_no_format (a := Resolver.store c (.int 5)) hc]
    rfl
  have hformula : r.stored annotated 0 annotatedFormula = .ok (.int 5) :=
    stored_forward (a := annotatedFormula) rfl hplain
  refine resolve_pair (r.resolveCell_done.2 ⟨_, _, hformula, shows _ rfl, rfl⟩) (.inr ⟨_, rfl⟩)
    (r.resolveCell_done.2 ⟨.int 5, _, ?_, shows _ rfl, rfl⟩) (.inl hplain)
  unfold Resolver.stored
  rw [hplain]
  rfl

/-- In the listing of the row the coordinate takes the place of the extra with its name, and the
other one stays. -/
theorem resolve_lists_annotated : annotated.ExtrasApart ∧
    (annotated.resolve firstDay).fault = none ∧
    (annotated.resolve firstDay).workbook.shape = [[2]] ∧
    (annotated.resolve firstDay).workbook.Lists (annotated.resolve firstDay).formulas ∧
    { cell := { value := .text forwardText, resolved := true, resolvedValue := .int 5,
                displayValue := some "5", extras := [("note", .text "sum")] }
      table := 0, row := 0, col := 0 } ∈ (annotated.resolve firstDay).formulas := by
  obtain ⟨hdone, hleft⟩ := annotated_resolve firstDay
  obtain ⟨hshape, -, hlists⟩ := (resolve_lists firstDay annotated annotated_extrasApart).2 hdone
  have hcell : (annotated.resolve firstDay).workbook.cell? 0 0 0 =
      some ((Resolver.store annotatedFormula (.int 5)).showing ⟨"5", none⟩) := by
    rw [hleft]
    rfl
  exact ⟨annotated_extrasApart, hdone, hshape, hlists,
    (hlists.mem_iff _).2 ⟨(0, 0, 0), _, hcell, rfl, rfl⟩⟩

end Spreadsheet
