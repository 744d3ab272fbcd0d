import Spreadsheet.Proofs.Idempotence

/-!
# Resolving an edited workbook again

A pass over a workbook that was resolved before reads old results wherever it has not come yet.
Where the cells that formulas mention ahead of themselves happen to be up to date, it ends with the
same results as a pass over new cells. Otherwise old results survive: a cell that passes on the
value of a later one keeps the value from before the edit. Main statement: `resolve_edited`.
-/

namespace Spreadsheet

open Value Workbook

/-! ## New cells -/

namespace Workbook

theorem cell?_renewed (w : Workbook) (n row col : Nat) :
    w.renewed.cell? n row col = (w.cell? n row col).map Cell.renewed := by
  unfold cell? renewed
  rw [List.getElem?_map]
  cases w[n]? with
  | none => rfl
  | some rows =>
    simp only [Option.map_some, Option.bind_eq_bind, Option.bind_some]
    rw [List.getElem?_map]
    cases rows[row]? with
    | none => rfl
    | some cells =>
      simp only [Option.map_some, Option.bind_some]
      exact List.getElem?_map

theorem length_renewed (w : Workbook) : w.renewed.length = w.length := List.length_map _

theorem renewed_unresolved (w : Workbook) : w.renewed.Unresolved := by
  intro n row col c hc
  rw [cell?_renewed] at hc
  obtain ⟨d, -, rfl⟩ := Option.map_eq_some_iff.1 hc
  rfl

theorem mentions_renewed {w : Workbook} {n : Nat} {text : String} {p : Nat × Nat × Nat}
    (h : w.renewed.Mentions n text p) : w.Mentions n text p := by
  obtain ⟨e, he, m, hm, hk, hq⟩ := h
  rw [tableIndex?_congr w.length_renewed] at hk
  exact ⟨e, he, m, hm, hk, hq⟩

end Workbook

namespace Resolver

variable {r : Resolver} {w v : Workbook} {n : Nat} {c d : Cell}

/-- If every cell can be resolved as the first one, no order of resolving them meets a fault. -/
theorem Partly.passes (hw : w.Unresolved) (hacyclic : (r.environment w).Acyclic)
    (hstored : r.Faithful w)
    (hfirst : ∀ n row col c, w.cell? n row col = some c →
      ∃ c', r.resolveCell w n c = (c', none) ∧ c'.Listable (n, row, col))
    (order : List (Nat × Nat × Nat)) :
    ∀ {visited : List (Nat × Nat × Nat)} {v : Workbook}, r.Partly w visited v → order.Nodup →
    (∀ p ∈ order, p ∉ visited) → r.Passes v order := by
  induction order with
  | nil =>
    intro visited v _ _ _
    trivial
  | cons p rest ih =>
    intro visited v hv honce hnew
    obtain ⟨n, row, col⟩ := p
    obtain ⟨hp, hrest⟩ := List.nodup_cons.1 honce
    have hunseen := hnew _ List.mem_cons_self
    refine ⟨fun c hc => ?_, ih (hv.resolveAt hw hacyclic hstored hunseen) hrest fun q hq => ?_⟩
    · have hfound : w.cell? n row col = some c := by
        have hcell := hv.cell n row col
        simp only [if_neg hunseen, Option.map_id'] at hcell
        exact hcell ▸ hc
      obtain ⟨c', hdone, hlist⟩ := hfirst n row col c hfound
      obtain ⟨x, s, hx, hs, rfl⟩ := r.resolveCell_done.1 hdone
      have hsame := stored_of_rel hstored hfound
        (hv.evaluateFormula_rel hw hacyclic hstored hfound)
      exact ⟨_, r.resolveCell_done.2 ⟨x, s, hsame.trans hx, hs, rfl⟩, hlist⟩
    · exact List.not_mem_cons_of_ne_of_not_mem (fun heq => hp (heq ▸ hq))
        (hnew q (List.mem_cons_of_mem _ hq))

/-! ## An old workbook and a new one -/

/-- The pass over the old cells leaves every cell up to date. The induction follows the pass: what a
formula mentions is before its cell, where the pass has been, or up to date as it was found. -/
theorem upToDate_of_ahead (hacyclic : (r.environment w.renewed).Acyclic)
    (hstored : r.Faithful w.renewed) (hahead : r.AheadUpToDate w)
    (h : (w.resolve r).fault = none) (p : Nat × Nat × Nat) :
    ∀ c d, w.cell? p.1 p.2.1 p.2.2 = some c →
      (w.resolve r).workbook.cell? p.1 p.2.1 p.2.2 = some d →
      r.UpToDate w.renewed p.1 c.renewed d := by
  have wellFounded : WellFounded Precedes :=
    Nat.lt_wfRel.wf.prod_lex (Nat.lt_wfRel.wf.prod_lex Nat.lt_wfRel.wf)
  induction p using wellFounded.induction with
  | _ p ih =>
    obtain ⟨n, row, col⟩ := p
    intro c d hc hd
    obtain ⟨v, d', hv, hdone, -, hd'⟩ := resolve_cell? h hc
    rw [hd] at hd'
    cases hd'
    have hnew : w.renewed.cell? n row col = some c.renewed := by
      rw [cell?_renewed, hc]
      rfl
    refine ⟨(r.finished_of_done hdone).resolved, ?_⟩
    rw [← r.stored_of_done hdone, r.stored_value (show c.value = c.renewed.value from rfl)]
    refine (stored_of_upToDate w.renewed_unresolved hacyclic hstored
      (hv.length.trans w.length_renewed.symm) hnew fun text ht k row' col' hmention => ?_).symm
    rw [cell?_renewed, hv.cell]
    cases hb : w.cell? k row' col' with
    | none =>
      rw [resolve_cell?_of_none h hb, ite_self]
      exact .none
    | some b =>
      split
      · next hprec =>
        obtain ⟨_, b', -, -, -, hb'⟩ := resolve_cell? h hb
        rw [hb']
        exact .some (ih _ hprec b b' hb hb')
      · next hprec =>
        exact .some (hahead n row col c text hc ht k row' col' b (mentions_renewed hmention) hprec
          hb)

/-- A new cell is resolved with the same outcome as an old one that was left up to date. -/
theorem resolveCell_renewed (hdate : r.UpToDate w.renewed n c.renewed d) (hf : r.Finished d)
    (hvalue : d.value = c.value) (hformat : d.format = c.format) :
    ∃ d', r.resolveCell w.renewed n c.renewed = (d', none) ∧ d'.extras = [] ∧ d.SameOutcome d' := by
  obtain ⟨hr, s, hs, hshown⟩ := hf
  have hsame : r.presented (store c.renewed d.resolvedValue) = r.presented d :=
    r.presented_congr hvalue.symm hformat.symm rfl
  refine ⟨_, r.resolveCell_done.2 ⟨_, s, hdate.stored, hsame.trans hs, rfl⟩, rfl, hr, rfl, ?_⟩
  rw [← hshown]
  rfl

end Resolver

/-- Resolving old cells again leaves the outcomes of new ones, where the cells that formulas mention
ahead of themselves are up to date. -/
theorem resolve_of_ahead {r : Resolver} {w : Workbook}
    (hacyclic : (r.environment w.renewed).Acyclic) (hstored : r.Faithful w.renewed)
    (hahead : r.AheadUpToDate w) (h : (w.resolve r).fault = none) :
    (w.renewed.resolve r).fault = none ∧ ∀ n row col,
      Option.Rel Cell.SameOutcome ((w.resolve r).workbook.cell? n row col)
        ((w.renewed.resolve r).workbook.cell? n row col) := by
  have outcome : ∀ n row col c d, w.cell? n row col = some c →
      (w.resolve r).workbook.cell? n row col = some d →
      ∃ d', r.resolveCell w.renewed n c.renewed = (d', none) ∧ d'.extras = [] ∧
        d.SameOutcome d' := by
    intro n row col c d hc hd
    have hdate := Resolver.upToDate_of_ahead hacyclic hstored hahead h (n, row, col) c d hc hd
    obtain ⟨_, d', -, hdone, -, hd'⟩ := resolve_cell? h hc
    rw [hd] at hd'
    cases hd'
    obtain ⟨hvalue, hformat⟩ := r.entered_of_done hdone
    exact Resolver.resolveCell_renewed hdate (r.finished_of_done hdone) hvalue hformat
  have hfault : (w.renewed.resolve r).fault = none := by
    refine resolve_fault_iff.2 (Resolver.Partly.passes w.renewed_unresolved hacyclic hstored ?_ _
      (.nil r w.renewed) w.renewed.nodup_positions fun _ _ => List.not_mem_nil)
    intro n row col c' hc'
    rw [cell?_renewed] at hc'
    obtain ⟨c, hc, rfl⟩ := Option.map_eq_some_iff.1 hc'
    obtain ⟨_, d, -, -, -, hd⟩ := resolve_cell? h hc
    obtain ⟨d', hdone, hextras, -⟩ := outcome n row col c d hc hd
    exact ⟨d', hdone, listable_of_no_extras hextras _⟩
  refine ⟨hfault, fun n row col => ?_⟩
  rw [resolve_workbook hfault, Resolver.resolveAll_cell? w.renewed_unresolved hacyclic hstored
    w.renewed.visits_positions, cell?_renewed]
  cases hc : w.cell? n row col with
  | none =>
    rw [resolve_cell?_of_none h hc]
    exact .none
  | some c =>
    obtain ⟨_, d, -, -, -, hd⟩ := resolve_cell? h hc
    obtain ⟨d', hdone, -, hsame⟩ := outcome n row col c d hc hd
    rw [hd, Option.map_some, Option.map_some, hdone]
    exact .some hsame

/-! ## Old results that survive -/

/-- The row whose first cell passes a value on, after a pass. -/
theorem resolve_forwarding {old x : Value} (r : Resolver) (hold : old.PassedOn x) : ∃ s t,
    x.display = .ok s ∧ ((forwarding old).resolve r).fault = none ∧
    ((forwarding old).resolve r).workbook =
      pair ((Resolver.store { value := .text forwardText } x).showing ⟨s, none⟩)
        ((Resolver.store { value := old } old).showing ⟨t, none⟩) := by
  obtain ⟨hplain, hnumber, ⟨t, ht⟩, s, hs⟩ := hold
  refine ⟨s, t, hs, ?_⟩
  exact resolve_row (a := { value := .text forwardText }) (b := { value := old }) rfl rfl hplain rfl
    ((stored_forward rfl hplain).trans hnumber) hs ht

/-- After the value was edited, the first cell passes on the old value once more. New cells pass on
the new one. -/
theorem resolve_forwarding_edited (r₁ r : Resolver) {old new x y : Value} (hold : old.PassedOn x)
    (hnew : new.PassedOn y) :
    (((forwarding old).edited r₁ [((0, 0, 1), new)]).resolve r).fault = none ∧
    ((((forwarding old).edited r₁ [((0, 0, 1), new)]).resolve r).workbook.cell? 0 0 0).map
      Cell.resolvedValue = some x ∧
    ((forwarding old).edited r₁ [((0, 0, 1), new)]).renewed = forwarding new ∧
    ((forwarding new).resolve r).fault = none ∧
    (((forwarding new).resolve r).workbook.cell? 0 0 0).map Cell.resolvedValue = some y := by
  obtain ⟨s, t, hs, -, hfirst⟩ := resolve_forwarding r₁ hold
  obtain ⟨s', t', -, hfresh, hcells⟩ := resolve_forwarding r hnew
  obtain ⟨hplain, -, ⟨t'', ht⟩, -⟩ := hnew
  have hedited : (forwarding old).edited r₁ [((0, 0, 1), new)] =
      pair ((Resolver.store { value := .text forwardText } x).showing ⟨s, none⟩)
        { (Resolver.store { value := old } old).showing ⟨t, none⟩ with value := new } := by
    unfold edited
    rw [hfirst]
    rfl
  have hstored := (stored_forward (r := r)
    (a := (Resolver.store { value := .text forwardText } x).showing ⟨s, none⟩)
    (b := { (Resolver.store { value := old } old).showing ⟨t, none⟩ with value := new }) rfl
    hplain).trans hold.numberForText
  obtain ⟨hagain, hleft⟩ := resolve_row rfl rfl hplain rfl hstored hs ht
  rw [hedited, hleft, hcells]
  exact ⟨hagain, rfl, rfl, hfresh, rfl⟩

/-! ## When the results are those of new cells -/

/-- **Resolving an edited workbook again.** In a workbook without cycles whose values store
faithfully, the second pass ends with the outcomes of new cells, where every cell that a formula
mentions, unless it comes before that of the formula, is up to date. If it is not, its old value
survives: whatever the first pass has stored for the formula of the first cell of a row, from the
second cell, is there again after the second cell was edited and the row resolved once more. -/
theorem resolve_edited (r₁ r : Resolver) :
    (∀ w changes, (r.environment (edited w r₁ changes).renewed).Acyclic →
      r.Faithful (edited w r₁ changes).renewed → r.AheadUpToDate (edited w r₁ changes) →
      ((edited w r₁ changes).resolve r).fault = none →
      ((edited w r₁ changes).renewed.resolve r).fault = none ∧ ∀ n row col,
        Option.Rel Cell.SameOutcome (((edited w r₁ changes).resolve r).workbook.cell? n row col)
          (((edited w r₁ changes).renewed.resolve r).workbook.cell? n row col)) ∧
    ∀ old new x y : Value, old.PassedOn x → new.PassedOn y →
      (((forwarding old).edited r₁ [((0, 0, 1), new)]).resolve r).fault = none ∧
      ((((forwarding old).edited r₁ [((0, 0, 1), new)]).resolve r).workbook.cell? 0 0 0).map
        Cell.resolvedValue = some x ∧
      (((forwarding old).edited r₁ [((0, 0, 1), new)]).renewed.resolve r).fault = none ∧
      ((((forwarding old).edited r₁ [((0, 0, 1), new)]).renewed.resolve r).workbook.cell? 0 0 0).map
        Cell.resolvedValue = some y := by
  refine ⟨fun w changes hacyclic hstored hahead h => resolve_of_ahead hacyclic hstored hahead h, ?_⟩
  intro old new x y hold hnew
  obtain ⟨hagain, hleft, hrenewed, hfresh, hnew'⟩ := resolve_forwarding_edited r₁ r hold hnew
  rw [hrenewed]
  exact ⟨hagain, hleft, hfresh, hnew'⟩

/-- A row of two numbers that was resolved before a formula took the place of the first one. -/
def replaced : Workbook :=
  (pair { value := .int 1 } { value := .int 5 }).edited firstDay
    [((0, 0, 0), .text forwardText)]

/-- Where a formula took the place of a number, a second pass does for it what the first would have
done. Where a 7 took the place of a 5, it passes on the 5. -/
theorem resolve_edited_five_seven :
    ((firstDay.environment replaced.renewed).Acyclic ∧ firstDay.Faithful replaced.renewed ∧
      firstDay.AheadUpToDate replaced ∧ (replaced.resolve firstDay).fault = none ∧
      ∀ n row col, Option.Rel Cell.SameOutcome
        ((replaced.resolve firstDay).workbook.cell? n row col)
        ((replaced.renewed.resolve firstDay).workbook.cell? n row col)) ∧
    (Value.int 5).PassedOn (.int 5) ∧ (Value.int 7).PassedOn (.int 7) ∧
    ((((forwarding (.int 5)).edited firstDay [((0, 0, 1), .int 7)]).resolve firstDay).workbook.cell?
      0 0 0).map Cell.resolvedValue = some (.int 5) := by
  have hfive : (Value.int 5).PassedOn (.int 5) := ⟨rfl, rfl, ⟨"5", by rfl⟩, ⟨"5", by rfl⟩⟩
  have hseven : (Value.int 7).PassedOn (.int 7) := ⟨rfl, rfl, ⟨"7", by rfl⟩, ⟨"7", by rfl⟩⟩
  obtain ⟨same, stale⟩ := resolve_edited firstDay firstDay
  refine ⟨?_, hfive, hseven, (stale _ _ _ _ hfive hseven).2.1⟩
  have hfirst := (resolve_row (r := firstDay) (a := { value := .int 1 }) (b := { value := .int 5 })
    (x := .int 1) rfl rfl rfl rfl rfl (s := "1") (by rfl) (t := "5") (by rfl)).2
  have hreplaced : replaced = pair
      { (Resolver.store { value := .int 1 } (.int 1)).showing ⟨"1", none⟩ with
        value := .text forwardText }
      ((Resolver.store { value := .int 5 } (.int 5)).showing ⟨"5", none⟩) := by
    unfold replaced edited
    rw [hfirst]
    rfl
  have hrenewed : replaced.renewed = forwarding (.int 5) := by
    rw [hreplaced]
    rfl
  have hacyclic : (firstDay.environment replaced.renewed).Acyclic := by
    rw [hrenewed]
    exact forwarding_acyclic rfl
  have hfaithful : firstDay.Faithful replaced.renewed := by
    rw [hrenewed]
    exact (forwarding_noNumericText rfl fun s h => by cases h).faithful
  have hfault : (replaced.resolve firstDay).fault = none := by
    rw [hreplaced]
    exact (resolve_row rfl rfl rfl rfl (stored_forward rfl rfl) (s := "5") (by rfl)
      (t := "5") (by rfl)).1
  have hahead : firstDay.AheadUpToDate replaced := by
    rw [hreplaced]
    intro n row col c text hc ht k row' col' d hmention _ hd
    rcases mem_pair hc with ⟨hp, rfl⟩ | ⟨-, rfl⟩
    · cases hp
      have hformula : (Value.text forwardText).formula? = some forwardText := by rfl
      cases Option.some.inj (hformula.symm.trans ht)
      cases forward_mentions hmention
      cases hd
      exact ⟨rfl, rfl⟩
    · cases ht
  exact ⟨hacyclic, hfaithful, hahead, hfault,
    (same (pair { value := .int 1 } { value := .int 5 }) _ hacyclic hfaithful hahead hfault).2⟩

/-- A pass over an edited workbook is not one over new cells: the value from before the edit is
passed on, though there are no cycles and no texts. -/
theorem forwarding_keeps_five :
    ¬ ∀ (r : Resolver) (w : Workbook) (changes : List ((Nat × Nat × Nat) × Value)),
      w.Unresolved → (w.resolve r).fault = none →
      (r.environment (w.edited r changes).renewed).Acyclic →
      r.NoNumericText (w.edited r changes).renewed → ((w.edited r changes).resolve r).fault = none →
      ∀ n row col,
        (((w.edited r changes).resolve r).workbook.cell? n row col).map Cell.resolvedValue =
        (((w.edited r changes).renewed.resolve r).workbook.cell? n row col).map
          Cell.resolvedValue := by
  intro h
  have hfive : (Value.int 5).PassedOn (.int 5) := ⟨rfl, rfl, ⟨"5", by rfl⟩, ⟨"5", by rfl⟩⟩
  have hseven : (Value.int 7).PassedOn (.int 7) := ⟨rfl, rfl, ⟨"7", by rfl⟩, ⟨"7", by rfl⟩⟩
  obtain ⟨_, _, -, hfirst, -⟩ := resolve_forwarding firstDay hfive
  obtain ⟨hagain, hleft, hrenewed, -, hfresh⟩ :=
    resolve_forwarding_edited firstDay firstDay hfive hseven
  have same := h firstDay (forwarding (.int 5)) [((0, 0, 1), .int 7)] (forwarding_unresolved _)
    hfirst (by rw [hrenewed]; exact forwarding_acyclic rfl)
    (by rw [hrenewed]; exact forwarding_noNumericText rfl fun s h => by cases h) hagain 0 0 0
  rw [hleft, hrenewed, hfresh] at same
  cases same

end Spreadsheet
