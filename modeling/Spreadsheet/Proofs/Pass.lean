import Mathlib.Data.List.Sort
import Spreadsheet.Proofs.VisitOrder
import Spreadsheet.Workbook.Pass

/-!
# A pass over a workbook

A pass without a fault resolves each cell exactly once, over a workbook that has the renewed cells
before it and the old ones from it on (`resolve_cell?`). It returns exactly when every cell on the
way is resolved and can be listed (`resolve_fault_iff`), and then what it reports follows from the
cells that it leaves (`resolve_eq`).
-/

namespace Spreadsheet

open Workbook

/-! ## The positions of a pass -/

theorem pairwise_zipIdx {α : Type} (l : List α) : l.zipIdx.Pairwise fun a b => a.2 < b.2 := by
  have h : (l.zipIdx.map Prod.snd).Pairwise (· < ·) := by
    rw [List.zipIdx_map_snd]
    exact List.pairwise_lt_range'
  exact List.pairwise_map.1 h

namespace Workbook

theorem mem_positions {w : Workbook} {n row col : Nat} :
    (n, row, col) ∈ w.positions ↔ (w.cell? n row col).isSome := by
  simp only [positions, List.mem_flatMap, List.mem_map, List.mem_range, Prod.exists,
    List.mem_zipIdx_iff_getElem?, Prod.mk.injEq, Option.isSome_iff_exists, cell?,
    Option.bind_eq_bind, Option.bind_eq_some_iff]
  constructor
  · rintro ⟨rows, n, hrows, cells, row, hcells, col, hcol, rfl, rfl, rfl⟩
    exact ⟨_, rows, hrows, cells, hcells, List.getElem?_eq_getElem hcol⟩
  · rintro ⟨c, rows, hrows, cells, hcells, hc⟩
    obtain ⟨hcol, -⟩ := List.getElem?_eq_some_iff.1 hc
    exact ⟨rows, n, hrows, cells, row, hcells, col, hcol, rfl, rfl, rfl⟩

theorem pairwise_positions (w : Workbook) : w.positions.Pairwise Precedes := by
  unfold positions
  refine List.pairwise_flatMap.2 ⟨?_, ?_⟩
  · rintro ⟨rows, n⟩ -
    refine List.pairwise_flatMap.2 ⟨?_, ?_⟩
    · rintro ⟨cells, row⟩ -
      exact List.pairwise_map.2 (List.pairwise_lt_range.imp fun h => .right _ (.right _ h))
    · refine (pairwise_zipIdx rows).imp ?_
      rintro ⟨cells, row⟩ ⟨cells', row'⟩ h p hp q hq
      obtain ⟨col, -, rfl⟩ := List.mem_map.1 hp
      obtain ⟨col', -, rfl⟩ := List.mem_map.1 hq
      exact .right _ (.left _ _ h)
  · refine (pairwise_zipIdx w).imp ?_
    rintro ⟨rows, n⟩ ⟨rows', n'⟩ h p hp q hq
    obtain ⟨_, -, hp⟩ := List.mem_flatMap.1 hp
    obtain ⟨_, -, rfl⟩ := List.mem_map.1 hp
    obtain ⟨_, -, hq⟩ := List.mem_flatMap.1 hq
    obtain ⟨_, -, rfl⟩ := List.mem_map.1 hq
    exact .left _ _ h

theorem nodup_positions (w : Workbook) : w.positions.Nodup :=
  w.pairwise_positions.imp fun h => ne_of_irrefl h

theorem visits_positions (w : Workbook) : w.Visits w.positions :=
  ⟨w.nodup_positions, fun _ _ _ => mem_positions⟩

/-- Workbooks with cells in the same places are passed over in the same order. -/
theorem positions_congr {w v : Workbook}
    (h : ∀ n row col, (w.cell? n row col).isSome = (v.cell? n row col).isSome) :
    w.positions = v.positions := by
  refine w.pairwise_positions.eq_of_mem_iff v.pairwise_positions ?_
  rintro ⟨n, row, col⟩
  rw [mem_positions, mem_positions, h]

end Workbook

/-! ## One cell -/

namespace Cell

theorem showing_showing (c : Cell) (s : Shown) : (c.showing s).showing s = c.showing s := by
  unfold showing
  cases s.color <;> rfl

end Cell

namespace Resolver

variable (r : Resolver) {w : Workbook} {n : Nat} {c c' : Cell}

theorem shown_of_no_format {format : Option String} (h : format = none ∨ format = some "")
    (v : Value) : r.shown format v = do return ⟨← v.display, none⟩ := by
  rcases h with rfl | rfl <;> rfl

theorem shown_of_format {format : String} (h : format ≠ "") (v : Value) :
    r.shown (some format) v = do
      let s ← r.formatter v format
      return ⟨s.text, s.color.filter (· ≠ "")⟩ := by
  unfold shown
  split
  · next heq => cases heq
  · next heq => exact absurd (Option.some.inj heq) h
  · next heq =>
    cases heq
    rfl

theorem applyDisplay_eq (c : Cell) (v : Value) :
    r.applyDisplay c v = (r.shown c.format v).map c.showing := by
  have plain : (do return { c with displayValue := some (← v.display) } : Except Fault Cell) =
      (do return ⟨← v.display, none⟩ : Except Fault Shown).map c.showing := by
    cases v.display <;> rfl
  unfold applyDisplay
  split
  · next hformat =>
    rw [r.shown_of_no_format (.inl hformat)]
    exact plain
  · next hformat =>
    rw [r.shown_of_no_format (.inr hformat)]
    exact plain
  · next format hne hformat =>
    have hshown := r.shown_of_format hne v
    rw [← hformat] at hshown
    rw [hshown]
    cases r.formatter v format with
    | error f => rfl
    | ok s =>
      obtain ⟨text, color⟩ := s
      dsimp only [bind, Except.bind, Except.map, pure, Except.pure]
      split
      · rfl
      · rfl
      · next color hcolor =>
        have hfilter : (some color).filter (· ≠ "") = some color := by
          simpa using hcolor
        rw [hfilter]
        rfl

/-- How the resolution of a cell goes on from the value that is stored. -/
theorem resolveCell_of_stored {v : Value} (h : r.stored w n c = .ok v) :
    r.resolveCell w n c =
      orKeep (store c v) ((r.presented (store c v)).map (store c v).showing) := by
  unfold stored at h
  unfold resolveCell presented
  cases ht : c.value.formula? with
  | none =>
    rw [ht] at h
    cases h
    have hstore : (store c c.value).value.formula? = none := ht
    rw [hstore]
    dsimp only
    rw [applyDisplay_eq]
    rfl
  | some text =>
    rw [ht] at h
    unfold environment at h
    have hstore : (store c v).value.formula? = some text := ht
    rw [hstore]
    dsimp only at h ⊢
    cases hval : evaluateFormula ⟨w, parseFormula, r.today⟩ c.value (.index n) [] with
    | error f =>
      rw [hval] at h
      cases h
    | ok value =>
      rw [hval] at h
      have hnumber : value.numberForText = .ok v := h
      dsimp only
      rw [hnumber]
      show orKeep (store c v) (r.scaled (store c v).format v >>= fun x =>
        r.applyDisplay (store c v) x) = _
      cases hscaled : r.scaled (store c v).format v with
      | error f =>
        rw [show (store c v).resolvedValue = v from rfl, hscaled]
        rfl
      | ok x =>
        rw [show (store c v).resolvedValue = v from rfl, hscaled]
        show orKeep _ (r.applyDisplay (store c v) x) = _
        rw [applyDisplay_eq]
        rfl

/-- A cell without a value to store is not resolved without a fault. -/
theorem resolveCell_of_stored_error {f : Fault} (h : r.stored w n c = .error f) :
    (r.resolveCell w n c).2 = some f := by
  unfold stored at h
  unfold resolveCell
  cases ht : c.value.formula? with
  | none =>
    rw [ht] at h
    cases h
  | some text =>
    rw [ht] at h
    unfold environment at h
    dsimp only at h ⊢
    cases hval : evaluateFormula ⟨w, parseFormula, r.today⟩ c.value (.index n) [] with
    | error g =>
      rw [hval] at h
      cases h
      rfl
    | ok value =>
      rw [hval] at h
      have hnumber : value.numberForText = .error f := h
      dsimp only
      rw [hnumber]

/-- A cell is resolved without a fault when it has a value to store and that can be shown. -/
theorem resolveCell_done : r.resolveCell w n c = (c', none) ↔ ∃ v s,
    r.stored w n c = .ok v ∧ r.presented (store c v) = .ok s ∧ c' = (store c v).showing s := by
  constructor
  · intro h
    cases hv : r.stored w n c with
    | error f =>
      have hfault := r.resolveCell_of_stored_error hv
      rw [h] at hfault
      cases hfault
    | ok v =>
      rw [r.resolveCell_of_stored hv] at h
      cases hs : r.presented (store c v) with
      | error f =>
        rw [hs] at h
        cases h
      | ok s =>
        rw [hs] at h
        cases h
        exact ⟨v, s, rfl, hs, rfl⟩
  · rintro ⟨v, s, hv, hs, rfl⟩
    rw [r.resolveCell_of_stored hv, hs]
    rfl

theorem stored_of_done (h : r.resolveCell w n c = (c', none)) :
    r.stored w n c = .ok c'.resolvedValue := by
  obtain ⟨v, s, hv, -, rfl⟩ := r.resolveCell_done.1 h
  exact hv

theorem entered_of_done (h : r.resolveCell w n c = (c', none)) :
    c'.value = c.value ∧ c'.format = c.format := by
  obtain ⟨v, s, -, -, rfl⟩ := r.resolveCell_done.1 h
  exact ⟨rfl, rfl⟩

theorem finished_of_done (h : r.resolveCell w n c = (c', none)) : r.Finished c' := by
  obtain ⟨v, s, -, hs, rfl⟩ := r.resolveCell_done.1 h
  exact ⟨rfl, s, hs, Cell.showing_showing _ s⟩

/-- What a cell stores depends on nothing but what was entered in it. -/
theorem stored_value {d : Cell} (h : c.value = d.value) : r.stored w n c = r.stored w n d := by
  unfold stored
  rw [h]

theorem presented_congr {d : Cell} (hvalue : c.value = d.value) (hformat : c.format = d.format)
    (hresolved : c.resolvedValue = d.resolvedValue) : r.presented c = r.presented d := by
  unfold presented
  rw [hvalue, hformat, hresolved]

end Resolver

/-! ## One step -/

namespace Resolver

variable {r : Resolver} {w : Workbook} {p : Nat × Nat × Nat} {c c' : Cell}

theorem resolveAt_of_none (h : w.cell? p.1 p.2.1 p.2.2 = none) : r.resolveAt w p = w := by
  obtain ⟨n, row, col⟩ := p
  unfold Resolver.resolveAt
  dsimp only at h ⊢
  rw [h]

theorem resolveAt_of_some (hc : w.cell? p.1 p.2.1 p.2.2 = some c) :
    r.resolveAt w p = w.modifyCell p.1 p.2.1 p.2.2 fun _ => (r.resolveCell w p.1 c).1 := by
  obtain ⟨n, row, col⟩ := p
  unfold Resolver.resolveAt
  dsimp only at hc ⊢
  rw [hc]

theorem resolveAt_of_done (hc : w.cell? p.1 p.2.1 p.2.2 = some c)
    (hd : r.resolveCell w p.1 c = (c', none)) :
    r.resolveAt w p = w.modifyCell p.1 p.2.1 p.2.2 fun _ => c' := by
  rw [resolveAt_of_some hc, hd]

theorem resolveAt_cell?_of_done (hc : w.cell? p.1 p.2.1 p.2.2 = some c)
    (hd : r.resolveCell w p.1 c = (c', none)) :
    (r.resolveAt w p).cell? p.1 p.2.1 p.2.2 = some c' := by
  rw [resolveAt_of_done hc hd, cell?_modifyCell, hc, Option.map_some, if_pos rfl]

end Resolver

namespace Resolution

variable {r : Resolver} {s : Resolution} {p : Nat × Nat × Nat} {c : Cell}

theorem noted_workbook (s : Resolution) (c : Cell) (p : Nat × Nat × Nat) (w : Workbook) :
    ({ s with workbook := w } : Resolution).noted c p = { s.noted c p with workbook := w } := by
  unfold noted
  split
  · unfold record
    cases c.resolvedValue.sentinel? <;> cases FormulaCell.ofCell c p.1 p.2.1 p.2.2 <;> rfl
  · rfl

theorem workbook_noted (s : Resolution) (c : Cell) (p : Nat × Nat × Nat) :
    (s.noted c p).workbook = s.workbook := by
  have h := congrArg Resolution.workbook (noted_workbook s c p s.workbook)
  exact h

theorem noted_fault (hs : s.fault = none) : (s.noted c p).fault = none ↔ c.Listable p := by
  unfold noted Cell.Listable
  split
  · next formula ht =>
    unfold record
    rw [ht]
    cases FormulaCell.ofCell c p.1 p.2.1 p.2.2 with
    | ok f => cases c.resolvedValue.sentinel? <;> simp [hs]
    | error faults => cases c.resolvedValue.sentinel? <;> simp
  · next ht => simp [hs, ht]

theorem visit_of_fault (hs : s.fault ≠ none) : visit r s p = s :=
  if_pos (Option.isSome_iff_ne_none.2 hs)

theorem visit_of_none (hc : s.workbook.cell? p.1 p.2.1 p.2.2 = none) : visit r s p = s := by
  unfold visit
  dsimp only
  rw [hc]
  exact ite_self s

/-- The state of a resolution after it has resolved a cell. -/
theorem visit_of_some (hs : s.fault = none) (hc : s.workbook.cell? p.1 p.2.1 p.2.2 = some c) :
    visit r s p = match r.resolveCell s.workbook p.1 c with
      | (c', none) =>
        ({ s with workbook := s.workbook.modifyCell p.1 p.2.1 p.2.2 fun _ => c' } :
          Resolution).noted c' p
      | (c', some f) =>
        { s with
          workbook := s.workbook.modifyCell p.1 p.2.1 p.2.2 fun _ => c'
          fault := some (.fault f) } := by
  obtain ⟨n, row, col⟩ := p
  unfold visit
  dsimp only at hc ⊢
  rw [hs, hc]
  dsimp only [Option.isSome_none]
  rw [if_neg Bool.false_ne_true]
  obtain ⟨c', fault⟩ := r.resolveCell s.workbook n c
  cases fault with
  | some f => rfl
  | none =>
    unfold noted
    dsimp only [Option.map_none]
    rw [← hs]
    cases c'.value.formula? <;> rfl

theorem visit_done {c' : Cell} (hs : s.fault = none)
    (hc : s.workbook.cell? p.1 p.2.1 p.2.2 = some c)
    (hd : r.resolveCell s.workbook p.1 c = (c', none)) :
    visit r s p = ({ s with workbook := r.resolveAt s.workbook p } : Resolution).noted c' p := by
  rw [visit_of_some hs hc, hd, Resolver.resolveAt_of_done hc hd]

theorem visit_fault_iff (hs : s.fault = none) : (visit r s p).fault = none ↔
    ∀ c, s.workbook.cell? p.1 p.2.1 p.2.2 = some c →
      ∃ c', r.resolveCell s.workbook p.1 c = (c', none) ∧ c'.Listable p := by
  cases hc : s.workbook.cell? p.1 p.2.1 p.2.2 with
  | none =>
    rw [visit_of_none hc]
    exact iff_of_true hs fun c h => by cases h
  | some c =>
    rw [visit_of_some hs hc]
    rcases hd : r.resolveCell s.workbook p.1 c with ⟨c', fault⟩
    cases fault with
    | none =>
      have hnoted := noted_fault
        (s := { s with workbook := s.workbook.modifyCell p.1 p.2.1 p.2.2 fun _ => c' })
        (c := c') (p := p) hs
      refine hnoted.trans ?_
      simp [hd]
    | some f => simp [hd]

/-- With or without a fault, a pass renews the cell that it visits. -/
theorem workbook_visit (hs : s.fault = none) :
    (visit r s p).workbook = r.resolveAt s.workbook p := by
  cases hc : s.workbook.cell? p.1 p.2.1 p.2.2 with
  | none => rw [visit_of_none hc, Resolver.resolveAt_of_none hc]
  | some c =>
    rw [visit_of_some hs hc, Resolver.resolveAt_of_some hc]
    rcases r.resolveCell s.workbook p.1 c with ⟨c', fault⟩
    cases fault with
    | none => exact workbook_noted _ c' p
    | some f => rfl

theorem foldl_visit_of_fault (hs : s.fault ≠ none) (order : List (Nat × Nat × Nat)) :
    order.foldl (visit r) s = s := by
  induction order with
  | nil => rfl
  | cons p rest ih => rw [List.foldl_cons, visit_of_fault hs, ih]

section

variable {w : Workbook} {rest : List (Nat × Nat × Nat)}

theorem notedAll_of_none (hc : w.cell? p.1 p.2.1 p.2.2 = none) :
    s.notedAll w (p :: rest) = s.notedAll w rest := by
  unfold notedAll
  rw [List.foldl_cons, hc]
  rfl

theorem notedAll_of_some (hc : w.cell? p.1 p.2.1 p.2.2 = some c) :
    s.notedAll w (p :: rest) = (s.noted c p).notedAll w rest := by
  unfold notedAll
  rw [List.foldl_cons, hc]
  rfl

end

theorem notedAll_workbook (s : Resolution) (w v : Workbook) (order : List (Nat × Nat × Nat)) :
    ({ s with workbook := v } : Resolution).notedAll w order =
      { s.notedAll w order with workbook := v } := by
  induction order generalizing s with
  | nil => rfl
  | cons p rest ih =>
    cases hc : w.cell? p.1 p.2.1 p.2.2 with
    | none => rw [notedAll_of_none hc, notedAll_of_none hc, ih]
    | some c => rw [notedAll_of_some hc, notedAll_of_some hc, noted_workbook, ih]

end Resolution

/-! ## Cells resolved one after the other -/

namespace Resolver

variable {r : Resolver} {w : Workbook}

theorem resolveAll_append (pre post : List (Nat × Nat × Nat)) :
    r.resolveAll w (pre ++ post) = r.resolveAll (r.resolveAll w pre) post :=
  List.foldl_append

theorem length_resolveAll (order : List (Nat × Nat × Nat)) :
    (r.resolveAll w order).length = w.length := by
  induction order generalizing w with
  | nil => rfl
  | cons p rest ih => exact ih.trans (length_resolveAt r w p)

theorem isSome_resolveAll (order : List (Nat × Nat × Nat)) (n row col : Nat) :
    ((r.resolveAll w order).cell? n row col).isSome = (w.cell? n row col).isSome := by
  induction order generalizing w with
  | nil => rfl
  | cons p rest ih =>
    obtain ⟨n', row', col'⟩ := p
    refine ih.trans ?_
    rw [resolveAt_cell?, Option.isSome_map]

theorem resolveAll_cell?_of_none {order : List (Nat × Nat × Nat)} {n row col : Nat}
    (hc : w.cell? n row col = none) : (r.resolveAll w order).cell? n row col = none := by
  have hsome := isSome_resolveAll (r := r) (w := w) order n row col
  rw [hc] at hsome
  exact Option.not_isSome_iff_eq_none.1 (by rw [hsome]; exact Bool.false_ne_true)

theorem resolveAll_cell?_of_not_mem {order : List (Nat × Nat × Nat)} {n row col : Nat}
    (h : (n, row, col) ∉ order) : (r.resolveAll w order).cell? n row col = w.cell? n row col := by
  induction order generalizing w with
  | nil => rfl
  | cons p rest ih =>
    obtain ⟨hp, hrest⟩ := List.ne_and_not_mem_of_not_mem_cons h
    obtain ⟨n', row', col'⟩ := p
    refine (ih hrest).trans ?_
    rw [resolveAt_cell?]
    simp only [if_neg hp, Option.map_id']

theorem passes_append {pre post : List (Nat × Nat × Nat)} : r.Passes w (pre ++ post) ↔
    r.Passes w pre ∧ r.Passes (r.resolveAll w pre) post := by
  induction pre generalizing w with
  | nil => exact (iff_of_eq (true_and _)).symm
  | cons p rest ih => exact (and_congr_right fun _ => ih).trans and_assoc.symm

end Resolver

namespace Resolution

variable {r : Resolver} {s : Resolution}

open Resolver

theorem foldl_visit_fault {order : List (Nat × Nat × Nat)} (hs : s.fault = none) :
    (order.foldl (visit r) s).fault = none ↔ r.Passes s.workbook order := by
  induction order generalizing s with
  | nil => exact iff_of_true hs trivial
  | cons p rest ih =>
    rw [List.foldl_cons, Passes, ← visit_fault_iff hs]
    by_cases hp : (visit r s p).fault = none
    · rw [ih hp, workbook_visit hs, and_iff_right hp]
    · rw [foldl_visit_of_fault hp]
      exact iff_of_false hp fun h => hp h.1

/-- Where no cell meets a fault, a pass over some positions leaves what resolving the cells there
one after the other leaves, and lists these cells. -/
theorem foldl_visit_eq {order : List (Nat × Nat × Nat)} (hs : s.fault = none)
    (honce : order.Nodup) (h : r.Passes s.workbook order) :
    order.foldl (visit r) s =
      { s.notedAll (r.resolveAll s.workbook order) order with
        workbook := r.resolveAll s.workbook order } := by
  induction order generalizing s with
  | nil => rfl
  | cons p rest ih =>
    obtain ⟨hp, hrest⟩ := List.nodup_cons.1 honce
    obtain ⟨hstep, hpass⟩ := h
    have hafter : (r.resolveAll s.workbook (p :: rest)).cell? p.1 p.2.1 p.2.2 =
        (r.resolveAt s.workbook p).cell? p.1 p.2.1 p.2.2 := resolveAll_cell?_of_not_mem hp
    rw [List.foldl_cons]
    cases hc : s.workbook.cell? p.1 p.2.1 p.2.2 with
    | none =>
      rw [resolveAt_of_none hc] at hpass hafter
      have hsame : r.resolveAll s.workbook (p :: rest) = r.resolveAll s.workbook rest := by
        show r.resolveAll (r.resolveAt s.workbook p) rest = _
        rw [resolveAt_of_none hc]
      rw [visit_of_none hc, ih hs hrest hpass, notedAll_of_none (hafter.trans hc), hsame]
    | some c =>
      obtain ⟨c', hd, hlist⟩ := hstep c hc
      have hfault := (noted_fault (s := { s with workbook := r.resolveAt s.workbook p }) hs).2 hlist
      have hbook := workbook_noted { s with workbook := r.resolveAt s.workbook p } c' p
      rw [visit_done hs hc hd, ih hfault hrest (hbook ▸ hpass), hbook,
        notedAll_of_some (hafter.trans (resolveAt_cell?_of_done hc hd)), noted_workbook,
        notedAll_workbook]
      rfl

end Resolution

/-! ## The pass over all cells -/

namespace Workbook

open Resolver

variable {r : Resolver} {w : Workbook}

theorem resolve_fault (w : Workbook) (r : Resolver) :
    (w.resolve r).fault = (w.positions.foldl (Resolution.visit r) w.begun).fault := by
  unfold resolve
  dsimp only
  split <;> rfl

/-- A pass returns when every cell is resolved and listed without a fault. -/
theorem resolve_fault_iff : (w.resolve r).fault = none ↔ r.Passes w w.positions := by
  rw [resolve_fault]
  exact Resolution.foldl_visit_fault rfl

/-- What a pass reports follows from the cells that it leaves. -/
theorem resolve_eq (h : r.Passes w w.positions) : w.resolve r =
    ({ w.begun.notedAll (r.resolveAll w w.positions) w.positions with
      workbook := r.resolveAll w w.positions } : Resolution).ended w.length := by
  have hfault := (Resolution.foldl_visit_fault (s := w.begun) rfl).2 h
  have hend := Resolution.foldl_visit_eq (s := w.begun) rfl w.nodup_positions h
  have hresolve : w.resolve r = if (w.positions.foldl (Resolution.visit r) w.begun).fault.isSome
      then w.positions.foldl (Resolution.visit r) w.begun
      else (w.positions.foldl (Resolution.visit r) w.begun).ended w.length := rfl
  rw [hresolve, hfault, Option.isSome_none, if_neg Bool.false_ne_true, hend]
  rfl

theorem resolve_workbook (h : (w.resolve r).fault = none) :
    (w.resolve r).workbook = r.resolveAll w w.positions := by
  rw [resolve_eq (resolve_fault_iff.1 h)]
  rfl

theorem length_resolve (h : (w.resolve r).fault = none) :
    (w.resolve r).workbook.length = w.length := by
  rw [resolve_workbook h, length_resolveAll]

theorem isSome_resolve (h : (w.resolve r).fault = none) (n row col : Nat) :
    ((w.resolve r).workbook.cell? n row col).isSome = (w.cell? n row col).isSome := by
  rw [resolve_workbook h, isSome_resolveAll]

theorem resolve_cell?_of_none (h : (w.resolve r).fault = none) {n row col : Nat}
    (hc : w.cell? n row col = none) : (w.resolve r).workbook.cell? n row col = none := by
  rw [resolve_workbook h]
  exact resolveAll_cell?_of_none hc

theorem positions_resolve (h : (w.resolve r).fault = none) :
    (w.resolve r).workbook.positions = w.positions :=
  positions_congr (isSome_resolve h)

section

variable {pre post : List (Nat × Nat × Nat)} {p q : Nat × Nat × Nat}

/-- The cells that a pass visits before a position are those that come before it. -/
theorem mem_pre_iff (hsplit : w.positions = pre ++ p :: post) :
    q ∈ pre ↔ q ∈ w.positions ∧ Precedes q p := by
  have hsorted := w.pairwise_positions
  rw [hsplit] at hsorted
  obtain ⟨-, hbehind, hacross⟩ := List.pairwise_append.1 hsorted
  constructor
  · intro hq
    rw [hsplit]
    exact ⟨List.mem_append_left _ hq, hacross _ hq _ List.mem_cons_self⟩
  · rintro ⟨hq, hprec⟩
    rw [hsplit] at hq
    rcases List.mem_append.1 hq with hq | hq
    · exact hq
    · rcases List.mem_cons.1 hq with heq | hq
      · exact absurd heq (ne_of_irrefl hprec)
      · exact absurd hprec (Std.Asymm.asymm _ _ (List.rel_of_pairwise_cons hbehind hq))

/-- The cells before a position are as they are left, whatever is resolved behind them. -/
theorem halfway_of_split (hsplit : w.positions = pre ++ p :: post)
    {more : List (Nat × Nat × Nat)} (hmore : ∀ q ∈ more, q ∉ pre) :
    w.Halfway (r.resolveAll w (pre ++ more)) p (r.resolveAll w pre) := by
  refine ⟨length_resolveAll pre, fun n row col => ?_⟩
  by_cases hq : (n, row, col) ∈ pre
  · rw [if_pos ((mem_pre_iff hsplit).1 hq).2, resolveAll_append,
      resolveAll_cell?_of_not_mem fun hlate => hmore _ hlate hq]
  · rw [resolveAll_cell?_of_not_mem hq]
    split
    · next hprec =>
      have hnone : w.cell? n row col = none := by
        rw [← Option.not_isSome_iff_eq_none, ← mem_positions]
        exact fun hmem => hq ((mem_pre_iff hsplit).2 ⟨hmem, hprec⟩)
      rw [hnone, resolveAll_cell?_of_none hnone]
    · rfl

/-- What a pass has reached before it comes to a position. -/
theorem halfway_resolveAll (h : (w.resolve r).fault = none)
    (hsplit : w.positions = pre ++ p :: post) :
    w.Halfway (w.resolve r).workbook p (r.resolveAll w pre) := by
  have honce := w.nodup_positions
  rw [hsplit] at honce
  rw [resolve_workbook h, hsplit]
  exact halfway_of_split hsplit fun q hq hpre => (List.nodup_append.1 honce).2.2 _ hpre _ hq rfl

end

/-- **One pass.** Each cell is resolved over the cells that the pass leaves before it and those that
it has found from there on. -/
theorem resolve_cell? (h : (w.resolve r).fault = none) {n row col : Nat} {c : Cell}
    (hc : w.cell? n row col = some c) :
    ∃ v c', w.Halfway (w.resolve r).workbook (n, row, col) v ∧ r.resolveCell v n c = (c', none) ∧
      c'.Listable (n, row, col) ∧ (w.resolve r).workbook.cell? n row col = some c' := by
  have hmem : (n, row, col) ∈ w.positions := mem_positions.2 (by rw [hc]; rfl)
  obtain ⟨pre, post, hsplit⟩ := List.append_of_mem hmem
  have hpass := resolve_fault_iff.1 h
  have honce := w.nodup_positions
  rw [hsplit] at hpass honce
  have hlater := (List.nodup_cons.1 (List.nodup_append.1 honce).2.1).1
  obtain ⟨-, hstep, -⟩ := passes_append.1 hpass
  have hhalf := halfway_resolveAll h hsplit
  have hnew : (r.resolveAll w pre).cell? n row col = some c := by
    rw [hhalf.cell, if_neg fun hprec => ne_of_irrefl hprec rfl, hc]
  obtain ⟨c', hd, hlist⟩ := hstep c hnew
  refine ⟨r.resolveAll w pre, c', hhalf, hd, hlist, ?_⟩
  rw [resolve_workbook h, hsplit, resolveAll_append]
  show (r.resolveAll (r.resolveAt _ _) post).cell? n row col = _
  rw [resolveAll_cell?_of_not_mem hlater]
  exact resolveAt_cell?_of_done hnew hd

/-- Each cell that a pass leaves comes from one that it has found. -/
theorem exists_of_resolve_cell? (h : (w.resolve r).fault = none) {n row col : Nat} {c' : Cell}
    (hc' : (w.resolve r).workbook.cell? n row col = some c') :
    ∃ c v, w.cell? n row col = some c ∧ w.Halfway (w.resolve r).workbook (n, row, col) v ∧
      r.resolveCell v n c = (c', none) ∧ c'.Listable (n, row, col) := by
  have hsome := isSome_resolve h n row col
  rw [hc'] at hsome
  obtain ⟨c, hc⟩ := Option.isSome_iff_exists.1 hsome.symm
  obtain ⟨v, d, hv, hd, hlist, hleft⟩ := resolve_cell? h hc
  rw [hc'] at hleft
  cases hleft
  exact ⟨c, v, hc, hv, hd, hlist⟩

end Workbook

end Spreadsheet
