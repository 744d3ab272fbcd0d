import Spreadsheet.Proofs.OrderShown
import Spreadsheet.Proofs.Stored

/-!
# A second pass

A pass without a fault may be repeated. Either every formula, evaluated over the values that were
stored, has the value that was stored for it; then the second pass leaves every cell and every entry
of the report as it was. Or some stored value changes, or a fault ends the pass. Without cycles and
with values that store faithfully the first case holds; a formula that counts its own cell is a
case of the other. Main statement: `resolve_resolve`.
-/

namespace Spreadsheet

open Value Workbook

theorem modify_of_fixed {α : Type} {l : List α} {i : Nat} {f : α → α}
    (h : ∀ x, l[i]? = some x → f x = x) : l.modify i f = l := by
  refine List.ext_getElem? fun j => ?_
  rw [List.getElem?_modify]
  cases hx : l[j]? with
  | none => rfl
  | some x =>
    by_cases hij : i = j
    · subst hij
      simp [h x hx]
    · simp [hij]

theorem modifyCell_self {w : Workbook} {n row col : Nat} {c : Cell}
    (h : w.cell? n row col = some c) : (w.modifyCell n row col fun _ => c) = w := by
  simp only [cell?, Option.bind_eq_bind, Option.bind_eq_some_iff] at h
  obtain ⟨rows, hrows, cells, hcells, hc⟩ := h
  refine modify_of_fixed fun rows' hrows' => modify_of_fixed fun cells' hcells' =>
    modify_of_fixed fun c' hc' => ?_
  rw [hrows] at hrows'
  cases hrows'
  rw [hcells] at hcells'
  cases hcells'
  rw [hc] at hc'
  exact Option.some.inj hc'

namespace Resolver

variable {r : Resolver} {w : Workbook} {n : Nat} {c : Cell}

/-- A finished cell that would store its own value again is left as it is. -/
theorem resolveCell_of_settled (hstored : r.stored w n c = .ok c.resolvedValue)
    (hfinished : r.Finished c) : r.resolveCell w n c = (c, none) := by
  obtain ⟨hr, s, hs, hshown⟩ := hfinished
  have hstore : store c c.resolvedValue = c := by
    unfold store
    rw [← hr]
  refine r.resolveCell_done.2 ⟨c.resolvedValue, s, hstored, ?_, ?_⟩
  · rw [hstore]
    exact hs
  · rw [hstore, hshown]

theorem resolveAll_of_unchanged (h : ∀ n row col c, w.cell? n row col = some c →
    r.resolveCell w n c = (c, none)) (order : List (Nat × Nat × Nat)) :
    r.resolveAll w order = w := by
  induction order with
  | nil => rfl
  | cons p rest ih =>
    obtain ⟨n, row, col⟩ := p
    have hat : r.resolveAt w (n, row, col) = w := by
      unfold Resolver.resolveAt
      dsimp only
      split
      · rfl
      · next c hc =>
        rw [h n row col c hc]
        exact modifyCell_self hc
    show r.resolveAll (r.resolveAt w (n, row, col)) rest = w
    rw [hat, ih]

theorem passes_of_unchanged (h : ∀ n row col c, w.cell? n row col = some c →
    r.resolveCell w n c = (c, none) ∧ c.Listable (n, row, col))
    (order : List (Nat × Nat × Nat)) : r.Passes w order := by
  induction order with
  | nil => trivial
  | cons p rest ih =>
    obtain ⟨n, row, col⟩ := p
    refine ⟨fun c hc => ⟨c, h n row col c hc⟩, ?_⟩
    have hat := resolveAll_of_unchanged (fun n row col c hc => (h n row col c hc).1)
      [(n, row, col)]
    show r.Passes (r.resolveAll w [(n, row, col)]) rest
    rw [hat]
    exact ih

/-- Where no formula has a numeric text as value, all values store faithfully. -/
theorem NoNumericText.faithful (h : r.NoNumericText w) : r.Faithful w := by
  intro n row col c text x hc ht hx
  cases x with
  | text s =>
    have hnumber := h n row col c text s hc ht hx
    refine ⟨.text s, ?_, rfl, rfl⟩
    unfold numberForText
    rw [hnumber]
    rfl
  | _ => exact ⟨_, rfl, rfl, rfl⟩

/-- A cell that is resolved in a workbook of unresolved cells stores its value there. -/
theorem upToDate_of_resolved (hstored : r.Faithful w) {row col : Nat}
    (hc : w.cell? n row col = some c) (hnew : c.resolved = false)
    (hr : (r.resolveCell w n c).1.resolved = true) :
    r.UpToDate w n c (r.resolveCell w n c).1 := by
  refine ⟨hr, ?_⟩
  unfold stored
  obtain ht | ⟨text, ht⟩ := Option.eq_none_or_eq_some c.value.formula?
  · rw [ht, (r.resolveCell_plain w n ht).2]
  · rw [ht]
    cases hval : evaluateFormula (r.environment w) c.value (.index n) [] with
    | error f =>
      rw [r.resolveCell_error w n ht hval, hnew] at hr
      exact absurd hr Bool.false_ne_true
    | ok value =>
      obtain ⟨stored, hs, -, -⟩ := hstored n row col c text value hc ht hval
      rw [(r.resolveCell_stored w n ht hval hs).2]
      exact hs

end Resolver

namespace Workbook

open Resolver

variable {r : Resolver} {w : Workbook}

/-- A settled workbook stays as it is, and so does the report on it. -/
theorem resolve_of_settled (h : (w.resolve r).fault = none)
    (hsettled : r.Settled (w.resolve r).workbook) :
    (w.resolve r).workbook.resolve r = w.resolve r := by
  have cells : ∀ n row col c, (w.resolve r).workbook.cell? n row col = some c →
      r.resolveCell (w.resolve r).workbook n c = (c, none) ∧ c.Listable (n, row, col) := by
    intro n row col c hc
    obtain ⟨_, _, -, -, hdone, hlist⟩ := exists_of_resolve_cell? h hc
    exact ⟨resolveCell_of_settled (hsettled n row col c hc) (r.finished_of_done hdone), hlist⟩
  have kept := resolveAll_of_unchanged fun n row col c hc => (cells n row col c hc).1
  have hbegun : (w.resolve r).workbook.begun =
      { w.begun with workbook := (w.resolve r).workbook } := by
    unfold begun
    rw [length_resolve h]
  rw [resolve_eq (passes_of_unchanged cells _), kept, positions_resolve h, length_resolve h, hbegun,
    Resolution.notedAll_workbook, resolve_workbook h]
  exact (resolve_eq (resolve_fault_iff.1 h)).symm

/-- A workbook is settled when a second pass returns with every stored value as it was. -/
theorem settled_of_kept (h : (w.resolve r).fault = none)
    (hagain : ((w.resolve r).workbook.resolve r).fault = none)
    (hkept : ∀ n row col,
      (((w.resolve r).workbook.resolve r).workbook.cell? n row col).map Cell.resolvedValue =
      ((w.resolve r).workbook.cell? n row col).map Cell.resolvedValue) :
    r.Settled (w.resolve r).workbook := by
  have resolved : ∀ {n row col c}, (w.resolve r).workbook.cell? n row col = some c →
      c.resolved = true := by
    intro n row col c hc
    obtain ⟨_, _, -, -, hdone, -⟩ := exists_of_resolve_cell? h hc
    exact (r.finished_of_done hdone).resolved
  intro n row col c hc
  obtain ⟨v, c', hv, hdone, -, hc'⟩ := resolve_cell? hagain hc
  have hsame : c'.resolvedValue = c.resolvedValue := by
    have hboth := hkept n row col
    rw [hc, hc'] at hboth
    exact Option.some.inj hboth
  rw [← hsame, ← r.stored_of_done hdone]
  refine (stored_congr hv.length fun k row' col' => ?_).symm
  rw [hv.cell]
  split
  · have hboth := hkept k row' col'
    cases hd : (w.resolve r).workbook.cell? k row' col' with
    | none =>
      rw [hd, Option.map_none, Option.map_eq_none_iff] at hboth
      rw [hboth]
      exact .none
    | some d =>
      obtain ⟨_, d', -, hdone', -, hd'⟩ := resolve_cell? hagain hd
      rw [hd, hd'] at hboth
      rw [hd']
      exact .some ⟨(r.finished_of_done hdone').resolved, resolved hd, Option.some.inj hboth⟩
  · cases hd : (w.resolve r).workbook.cell? k row' col' with
    | none => exact .none
    | some d => exact .some ⟨resolved hd, resolved hd, rfl⟩

/-- Without cycles and with values that store faithfully a pass leaves a settled workbook. -/
theorem settled_of_faithful (hw : w.Unresolved) (hacyclic : (r.environment w).Acyclic)
    (hstored : r.Faithful w) (h : (w.resolve r).fault = none) :
    r.Settled (w.resolve r).workbook := by
  have cells : ∀ n row col, (w.resolve r).workbook.cell? n row col =
      (w.cell? n row col).map fun c => (r.resolveCell w n c).1 := by
    intro n row col
    rw [resolve_workbook h]
    exact resolveAll_cell? hw hacyclic hstored w.visits_positions n row col
  have current : ∀ {n row col c}, w.cell? n row col = some c →
      r.UpToDate w n c (r.resolveCell w n c).1 := by
    intro n row col c hc
    obtain ⟨_, c', -, hdone, -, hc'⟩ := resolve_cell? h hc
    rw [cells, hc, Option.map_some] at hc'
    refine upToDate_of_resolved hstored hc (hw n row col c hc) ?_
    rw [Option.some.inj hc']
    exact (r.finished_of_done hdone).resolved
  intro n row col c' hc'
  obtain ⟨c, v, hc, -, hdone, -⟩ := exists_of_resolve_cell? h hc'
  have hvalue : (r.resolveCell w n c).1 = c' := by
    rw [cells, hc] at hc'
    exact Option.some.inj hc'
  rw [r.stored_value (r.entered_of_done hdone).1,
    stored_of_upToDate hw hacyclic hstored (length_resolve h) hc fun _ _ k row' col' _ => ?_,
    (current hc).stored, hvalue]
  rw [cells]
  cases hd : w.cell? k row' col' with
  | none => exact .none
  | some d => exact .some (current hd)

end Workbook

/-! ## Two cells in a row -/

/-- A workbook of two cells in a row. -/
def pair (a b : Cell) : Workbook := [[[a, b]]]

/-- A formula that passes the second cell of the row on. -/
abbrev forwardText : String := "=B1"

/-- A row whose first cell passes a value on from the second. -/
def forwarding (v : Value) : Workbook := pair { value := .text forwardText } { value := v }

section

variable {r : Resolver} {a b : Cell}

theorem resolve_pair {a' b' : Cell} (ha : r.resolveCell (pair a b) 0 a = (a', none))
    (hla : a'.Listable (0, 0, 0)) (hb : r.resolveCell (pair a' b) 0 b = (b', none))
    (hlb : b'.Listable (0, 0, 1)) :
    ((pair a b).resolve r).fault = none ∧ ((pair a b).resolve r).workbook = pair a' b' := by
  have first : r.resolveAt (pair a b) (0, 0, 0) = pair a' b :=
    Resolver.resolveAt_of_done (p := (0, 0, 0)) rfl ha
  have second : r.resolveAt (pair a' b) (0, 0, 1) = pair a' b' :=
    Resolver.resolveAt_of_done (p := (0, 0, 1)) rfl hb
  have hpass : r.Passes (pair a b) (pair a b).positions := by
    refine ⟨fun c hc => ?_, ?_⟩
    · cases hc
      exact ⟨a', ha, hla⟩
    · rw [first]
      refine ⟨fun c hc => ?_, trivial⟩
      cases hc
      exact ⟨b', hb, hlb⟩
  refine ⟨resolve_fault_iff.2 hpass, ?_⟩
  rw [resolve_workbook (resolve_fault_iff.2 hpass)]
  show r.resolveAt (r.resolveAt (pair a b) (0, 0, 0)) (0, 0, 1) = _
  rw [first, second]

theorem presented_of_no_format (hf : a.format = none) :
    r.presented a = do return ⟨← a.resolvedValue.display, none⟩ := by
  have hscaled : r.scaled none a.resolvedValue = .ok a.resolvedValue := by
    have hpercent : Resolver.isPercent none = false := by rfl
    unfold Resolver.scaled
    rw [hpercent, Bool.and_false, if_neg Bool.false_ne_true]
  unfold Resolver.presented
  rw [hf]
  split
  · rfl
  · rw [hscaled]
    rfl

theorem stored_of_text {w : Workbook} {n : Nat} {text : String} {v : Value}
    (ha : a.value = .text text) (ht : (Value.text text).formula? = some text)
    (hv : evaluateFormula (r.environment w) (.text text) (.index n) [] = .ok v) :
    r.stored w n a = v.numberForText := by
  unfold Resolver.stored
  rw [ha, ht]
  dsimp only
  rw [hv]
  rfl

theorem listable_of_no_extras (hea : a.extras = []) (p : Nat × Nat × Nat) : a.Listable p := by
  refine .inr ?_
  unfold FormulaCell.ofCell FormulaCell.extra?
  rw [hea]
  exact ⟨_, rfl⟩

theorem read_plain {p : Progress} (hb : b.value.formula? = none) :
    (((r.environment (pair a b)).source p).cellValue (.index 0) "B1") = .ok b.content := by
  have hparse : Reference.parse "B1" = .ok (some ⟨0, 1, false, false⟩) := by rfl
  show ((pair a b).source _).cellValue (.index (0 : Nat)) "B1" = _
  rw [source_cellValue (pair a b) _ Nat.one_pos hparse (c := b) rfl]
  unfold Cell.content
  cases hr : b.resolved with
  | true => exact Cell.read_of_resolved hr
  | false => exact Cell.read_of_plain hr hb

theorem evaluate_forward (hb : b.value.formula? = none) :
    evaluateFormula (r.environment (pair a b)) (.text forwardText) (.index 0) [] =
      .ok b.content := by
  have hparse : parseFormula forwardText = .ok (.cell "B1" none) := by cbv
  rw [evaluateFormula_of_tree (by rfl) (by rfl) hparse, value_cell r.today (read_plain hb)]
  rfl

/-- A pass over two cells without a format, the second one of a plain value. -/
theorem resolve_row (hfa : a.format = none) (hea : a.extras = [])
    (hb : b.value.formula? = none) (hfb : b.format = none) {x : Value} {s t : String}
    (hx : r.stored (pair a b) 0 a = .ok x) (hs : x.display = .ok s)
    (ht : b.value.display = .ok t) :
    ((pair a b).resolve r).fault = none ∧ ((pair a b).resolve r).workbook =
      pair ((Resolver.store a x).showing ⟨s, none⟩)
        ((Resolver.store b b.value).showing ⟨t, none⟩) := by
  have hlist : ((Resolver.store a x).showing ⟨s, none⟩).Listable (0, 0, 0) :=
    listable_of_no_extras (a := (Resolver.store a x).showing ⟨s, none⟩) hea _
  refine resolve_pair (r.resolveCell_done.2 ⟨x, ⟨s, none⟩, hx, ?_, rfl⟩) hlist
    (r.resolveCell_done.2 ⟨b.value, ⟨t, none⟩, ?_, ?_, rfl⟩) (.inl hb)
  · rw [presented_of_no_format (a := Resolver.store a x) hfa,
      show (Resolver.store a x).resolvedValue = x from rfl, hs]
    rfl
  · unfold Resolver.stored
    rw [hb]
  · rw [presented_of_no_format (a := Resolver.store b b.value) hfb,
      show (Resolver.store b b.value).resolvedValue = b.value from rfl, ht]
    rfl

theorem stored_forward (ha : a.value = .text forwardText) (hb : b.value.formula? = none) :
    r.stored (pair a b) 0 a = b.content.numberForText :=
  stored_of_text ha (by rfl) (evaluate_forward hb)

/-- The row whose first cell passes a value on has one formula, which calls nothing. -/
theorem forwarding_formulas {v : Value} (hv : v.formula? = none) :
    (forwarding v).formulas = [(0, forwardText)] := by
  have hformula : Value.formula? (.text forwardText) = some forwardText := by rfl
  simp [Workbook.formulas, forwarding, pair, cellsOf, List.range_succ, hv, hformula]

theorem forwarding_acyclic {v : Value} (hv : v.formula? = none) :
    (r.environment (forwarding v)).Acyclic := by
  have hparse : parseFormula forwardText = .ok (.cell "B1" none) := by cbv
  have hB1 : Reference.parse "B1" = .ok (some ⟨0, 1, false, false⟩) := by rfl
  have calls : (r.environment (forwarding v)).callees (.index (0 : Nat)) forwardText = [] := by
    unfold Environment.callees
    dsimp only
    rw [hparse]
    simp [Expr.mentions, openFormulas, Mention.table, Mention.positions, hB1, Cell.openFormula?,
      forwarding, pair, hv, cell?, tableIndex?]
  refine Environment.Acyclic.of_measure (fun _ => 0) fun f hf g hg => ?_
  dsimp only at hf
  rw [forwarding_formulas hv, List.mem_singleton] at hf
  rw [hf, calls] at hg
  cases hg

theorem mem_pair {n row col : Nat} {c : Cell} (hc : (pair a b).cell? n row col = some c) :
    (n, row, col) = (0, 0, 0) ∧ c = a ∨ (n, row, col) = (0, 0, 1) ∧ c = b := by
  have hmem : (n, row, col) ∈ (pair a b).positions := mem_positions.2 (by rw [hc]; rfl)
  rcases List.mem_cons.1 hmem with heq | hmem
  · cases heq
    cases hc
    exact .inl ⟨rfl, rfl⟩
  · cases List.mem_singleton.1 hmem
    cases hc
    exact .inr ⟨rfl, rfl⟩

theorem forwarding_unresolved (v : Value) : (forwarding v).Unresolved := by
  intro n row col c hc
  rcases mem_pair hc with ⟨-, rfl⟩ | ⟨-, rfl⟩ <;> rfl

theorem forwarding_noNumericText {v : Value} (hv : v.formula? = none) (hs : ∀ s, v ≠ .text s) :
    r.NoNumericText (forwarding v) := by
  intro n row col c text s hc ht hx
  rcases mem_pair hc with ⟨hp, rfl⟩ | ⟨-, rfl⟩
  · cases hp
    cases hx.symm.trans (evaluate_forward (b := { value := v }) hv)
    exact absurd rfl (hs s)
  · rw [hv] at ht
    cases ht

theorem forward_mentions {p : Nat × Nat × Nat} (h : (pair a b).Mentions 0 forwardText p) :
    p = (0, 0, 1) := by
  have hparse : parseFormula forwardText = .ok (.cell "B1" none) := by cbv
  have hB1 : Reference.parse "B1" = .ok (some ⟨0, 1, false, false⟩) := by rfl
  obtain ⟨e, he, m, hm, hk, hq⟩ := h
  obtain ⟨k, row, col⟩ := p
  rw [hparse] at he
  cases he
  cases List.mem_singleton.1 hm
  simp only [Mention.table, Option.getD_none, tableIndex?_index (show 0 < (pair a b).length from
    Nat.one_pos), Option.some.injEq] at hk
  simp only [Mention.positions, hB1, List.mem_singleton, Prod.mk.injEq] at hq
  rw [← hk, hq.1, hq.2]

/-! ## A cell that counts itself -/

/-- A formula that counts the numbers in its own cell. -/
abbrev countingText : String := "=COUNT(A1)"

/-- A row whose first cell counts itself. -/
def counting : Workbook := pair { value := .text countingText } {}

theorem evaluate_counting {x : Value} (hx : ∀ b, x ≠ .bool b)
    (hread : ((r.environment (pair a b)).source [cellKey 0 countingText]).cellValue (.index 0)
      "A1" = .ok x) :
    evaluateFormula (r.environment (pair a b)) (.text countingText) (.index 0) [] =
      .ok (counted x) := by
  have hparse : parseFormula countingText = .ok (.call "COUNT" [.cell "A1" none]) := by cbv
  rw [evaluateFormula_of_tree (by rfl) (by rfl) hparse, value_count r.today hx hread]
  rfl

theorem counting_read (f : ∀ k text, (k, text) ∈ (pair a b).formulas → Except Fault Value) :
    ((pair a b).source f).cellValue (.index (0 : Nat)) "A1" =
      a.read fun text ht =>
        f 0 text (mem_formulas_of_cell? (show (pair a b).cell? 0 0 0 = some a from rfl) ht) := by
  have hparse : Reference.parse "A1" = .ok (some ⟨0, 0, false, false⟩) := by rfl
  exact source_cellValue (pair a b) f Nat.one_pos hparse rfl

/-- At first the cell meets its own formula in progress, which is no number. -/
theorem stored_counting_first (ha : a.value = .text countingText) (hr : a.resolved = false) :
    r.stored (pair a b) 0 a = .ok (.int 0) := by
  have hformula : a.value.formula? = some countingText := by
    rw [ha]
    rfl
  have hread : ((r.environment (pair a b)).source [cellKey 0 countingText]).cellValue (.index 0)
      "A1" = .ok Sentinel.circular.value := by
    refine (counting_read _).trans ?_
    rw [Cell.read_of_formula hr hformula]
    exact Environment.formulaValue_of_mem _ _ (List.mem_singleton.2 rfl)
  have hcount : counted Sentinel.circular.value = .int 0 := by cbv
  rw [stored_of_text ha (by rfl) (evaluate_counting (fun b h => by cases h) hread), hcount]
  rfl

/-- Once it stores a number, the cell counts that. -/
theorem stored_counting_again (ha : a.value = .text countingText) (hr : a.resolved = true)
    (hv : a.resolvedValue = .int 0) : r.stored (pair a b) 0 a = .ok (.int 1) := by
  have hread : ((r.environment (pair a b)).source [cellKey 0 countingText]).cellValue (.index 0)
      "A1" = .ok (.int 0) := by
    refine (counting_read _).trans ?_
    rw [Cell.read_of_resolved hr, hv]
    rfl
  have hcount : counted (.int 0) = .int 1 := by
    have hnumber : (Value.int 0).number? = .ok (some (.int 0)) := by
      have hdouble : (Numeral.ofInt? 0).isSome = true := by rfl
      simp only [number?]
      rw [if_pos hdouble]
    unfold counted
    rw [count_apply_single (fun b h => by cases h), hnumber]
    rfl
  rw [stored_of_text ha (by rfl) (evaluate_counting (fun b h => by cases h) hread), hcount]
  rfl

end

/-! ## When a second pass changes nothing -/

/-- **Repeating a pass.** After a pass without a fault, a second one changes nothing at all, neither
a cell nor the report, exactly when the workbook is settled. It is settled already when the second
pass returns and keeps the stored values, and it is when the cells were unresolved, there are no
cycles and the values of the formulas store faithfully. -/
theorem resolve_resolve (r : Resolver) (w : Workbook) (h : (w.resolve r).fault = none) :
    (r.Settled (w.resolve r).workbook ↔
      (w.resolve r).workbook.resolve r = w.resolve r) ∧
    (r.Settled (w.resolve r).workbook ↔
      ((w.resolve r).workbook.resolve r).fault = none ∧ ∀ n row col,
        (((w.resolve r).workbook.resolve r).workbook.cell? n row col).map Cell.resolvedValue =
        ((w.resolve r).workbook.cell? n row col).map Cell.resolvedValue) ∧
    (w.Unresolved → (r.environment w).Acyclic → r.Faithful w →
      r.Settled (w.resolve r).workbook) := by
  have same := resolve_of_settled (r := r) h
  have kept : (w.resolve r).workbook.resolve r = w.resolve r →
      ((w.resolve r).workbook.resolve r).fault = none ∧ ∀ n row col,
        (((w.resolve r).workbook.resolve r).workbook.cell? n row col).map Cell.resolvedValue =
        ((w.resolve r).workbook.cell? n row col).map Cell.resolvedValue := by
    intro hsame
    rw [hsame]
    exact ⟨h, fun _ _ _ => rfl⟩
  refine ⟨⟨same, fun hsame => ?_⟩, ⟨fun hsettled => kept (same hsettled), ?_⟩, ?_⟩
  · obtain ⟨hagain, hkept⟩ := kept hsame
    exact settled_of_kept h hagain hkept
  · rintro ⟨hagain, hkept⟩
    exact settled_of_kept h hagain hkept
  · exact fun hw hacyclic hstored => settled_of_faithful hw hacyclic hstored h

/-- The row whose first cell passes on the number 5 is settled by one pass. -/
theorem resolve_resolve_forwarding :
    ((forwarding (.int 5)).resolve firstDay).fault = none ∧
    (forwarding (.int 5)).Unresolved ∧ (firstDay.environment (forwarding (.int 5))).Acyclic ∧
    firstDay.Faithful (forwarding (.int 5)) ∧
    ((forwarding (.int 5)).resolve firstDay).workbook.resolve firstDay =
      (forwarding (.int 5)).resolve firstDay := by
  have hplain : (Value.int 5).formula? = none := rfl
  have hforward := forwarding_acyclic (r := firstDay) hplain
  have hfaithful := (forwarding_noNumericText (r := firstDay) hplain fun s h => by cases h).faithful
  have hstored := stored_forward (r := firstDay) (a := { value := .text forwardText })
    (b := { value := .int 5 }) rfl hplain
  have h := (resolve_row (r := firstDay) (a := { value := .text forwardText })
    (b := { value := .int 5 }) rfl rfl hplain rfl hstored (by rfl) (by rfl)).1
  obtain ⟨settled, -, faithful⟩ := resolve_resolve firstDay (forwarding (.int 5)) h
  exact ⟨h, forwarding_unresolved _, hforward, hfaithful,
    settled.1 (faithful (forwarding_unresolved _) hforward hfaithful)⟩

/-- A pass over unresolved cells is not idempotent: a cell that counts itself stores 0, then 1. -/
theorem counting_changes :
    ¬ ∀ (r : Resolver) (w : Workbook), w.Unresolved → (w.resolve r).fault = none →
      ((w.resolve r).workbook.resolve r).fault = none → ∀ n row col,
        (((w.resolve r).workbook.resolve r).workbook.cell? n row col).map Cell.resolvedValue =
        ((w.resolve r).workbook.cell? n row col).map Cell.resolvedValue := by
  intro h
  have hunresolved : counting.Unresolved := by
    intro n row col c hc
    rcases mem_pair hc with ⟨-, rfl⟩ | ⟨-, rfl⟩ <;> rfl
  obtain ⟨hfirst, honce⟩ := resolve_row (r := firstDay) (a := { value := .text countingText })
    (b := {}) rfl rfl rfl rfl (stored_counting_first rfl rfl) (s := "0") (by rfl)
    (t := "") (by rfl)
  have hstored := stored_counting_again (r := firstDay)
    (a := (Resolver.store { value := .text countingText } (.int 0)).showing ⟨"0", none⟩)
    (b := (Resolver.store {} .null).showing ⟨"", none⟩) rfl rfl rfl
  obtain ⟨hsecond, htwice⟩ := resolve_row rfl rfl rfl rfl hstored (s := "1") (by rfl)
    (t := "") (by rfl)
  have honce' : (counting.resolve firstDay).workbook = pair
      ((Resolver.store { value := .text countingText } (.int 0)).showing ⟨"0", none⟩)
      ((Resolver.store {} .null).showing ⟨"", none⟩) := honce
  have kept := h firstDay counting hunresolved hfirst (by rw [honce']; exact hsecond) 0 0 0
  rw [honce', htwice] at kept
  cases kept

end Spreadsheet
