import Spreadsheet.Proofs.Pass
import Spreadsheet.Workbook.Edit

/-!
# What is stored follows from what is read

Two workbooks give a formula related values when they read related values at every position that it
mentions (`evaluateFormula_rel`). So a formula stores the same over workbooks that have stored the
same everywhere (`stored_congr`), and, in a workbook without cycles whose values store faithfully,
the same over cells that are up to date as over the unresolved ones (`stored_of_upToDate`).
-/

namespace Spreadsheet

open Value Workbook

namespace Resolver

variable {r : Resolver} {v w : Workbook} {n : Nat} {c : Cell}

/-- A formula has related values over two workbooks that read related values wherever it mentions
a cell. -/
theorem evaluateFormula_rel {V : Value → Value → Prop} (hV : Respected V)
    (hlength : v.length = w.length)
    (hread : ∀ text, c.value.formula? = some text → ∀ k row col, v.Mentions n text (k, row, col) →
      Option.Rel (OutcomeRel V)
        (((r.environment v).source [cellKey n text]).read? k row col)
        (((r.environment w).source [cellKey n text]).read? k row col)) :
    OutcomeRel V (evaluateFormula (r.environment v) c.value (.index n) [])
      (evaluateFormula (r.environment w) c.value (.index n) []) := by
  unfold evaluateFormula
  obtain ht | ⟨text, ht⟩ := Option.eq_none_or_eq_some c.value.formula?
  · rw [ht]
    exact .ok (hV.refl _)
  · rw [ht]
    refine Simulation.plain.bind (.self (formulaKey (.index n) text)) ?_
    rintro key _ ⟨hkey, rfl⟩
    rw [formulaKey_index hkey, if_neg List.not_mem_nil, if_neg List.not_mem_nil]
    refine Simulation.plain.contain hV ?_
    refine Simulation.plain.bind (Simulation.plain.ofExcept_self _) ?_
    rintro e _ ⟨he, rfl⟩
    refine Expr.value_rel Simulation.plain r.today _ hV e fun m hm => ?_
    refine ⟨tableIndex?_congr hlength _, fun k hk q hq => ?_⟩
    exact hread text ht k q.1 q.2 ⟨e, he, m, hm, hk, hq⟩

/-- A cell stores the same over two workbooks that have stored the same values. -/
theorem stored_congr (hlength : v.length = w.length)
    (h : ∀ k row col, Option.Rel
      (fun d d' => d.resolved = true ∧ d'.resolved = true ∧ d.resolvedValue = d'.resolvedValue)
      (v.cell? k row col) (w.cell? k row col)) : r.stored v n c = r.stored w n c := by
  have hrel : OutcomeRel (fun a b => a = b)
      (evaluateFormula (r.environment v) c.value (.index n) [])
      (evaluateFormula (r.environment w) c.value (.index n) []) := by
    refine evaluateFormula_rel respected_eq hlength fun text _ k row col _ => ?_
    show Option.Rel _ ((v.source _).read? k row col) ((w.source _).read? k row col)
    have hcells := h k row col
    generalize hd : v.cell? k row col = x at hcells
    generalize hd' : w.cell? k row col = y at hcells
    cases hcells with
    | none =>
      rw [source_read?_none v _ hd, source_read?_none w _ hd']
      exact .none
    | some hsame =>
      obtain ⟨hr, hr', hv⟩ := hsame
      rw [source_read?_some v _ hd, source_read?_some w _ hd', Cell.read_of_resolved hr,
        Cell.read_of_resolved hr', hv]
      exact .some (.ok rfl)
  unfold stored
  rw [hrel.eq]

/-- What a cell stores is the value of what it holds, stored without loss. -/
theorem exists_value_of_stored (hstored : r.Faithful w) {row col : Nat} {x : Value}
    (hc : w.cell? n row col = some c) (h : r.stored w n c = .ok x) :
    ∃ value, evaluateFormula (r.environment w) c.value (.index n) [] = .ok value ∧
      value.StoredAs x := by
  unfold stored at h
  obtain ht | ⟨text, ht⟩ := Option.eq_none_or_eq_some c.value.formula?
  · rw [ht] at h
    cases h
    exact ⟨c.value, evaluateFormula_of_plain _ ht, .inl rfl⟩
  · rw [ht] at h
    cases hval : evaluateFormula (r.environment w) c.value (.index n) [] with
    | error f =>
      rw [hval] at h
      cases h
    | ok value =>
      rw [hval] at h
      obtain ⟨stored, hs, hnum, htrue⟩ := hstored n row col c text value hc ht hval
      cases hs.symm.trans h
      exact ⟨value, rfl, .inr ⟨hs, hnum, htrue⟩⟩

theorem stored_of_rel (hstored : r.Faithful w) {row col : Nat} (hc : w.cell? n row col = some c)
    (hrel : OutcomeRel StoredAs (evaluateFormula (r.environment w) c.value (.index n) [])
      (evaluateFormula (r.environment v) c.value (.index n) [])) :
    r.stored v n c = r.stored w n c := by
  unfold stored
  obtain ht | ⟨text, ht⟩ := Option.eq_none_or_eq_some c.value.formula?
  · rw [ht]
  · rw [ht]
    dsimp only
    cases hval : evaluateFormula (r.environment w) c.value (.index n) [] with
    | error f =>
      rw [hval] at hrel
      generalize evaluateFormula (r.environment v) c.value (.index n) [] = y at hrel ⊢
      cases hrel
      rfl
    | ok value =>
      obtain ⟨stored, hs, -, -⟩ := hstored n row col c text value hc ht hval
      rw [hval] at hrel
      generalize evaluateFormula (r.environment v) c.value (.index n) [] = y at hrel ⊢
      cases hrel with
      | ok hrel => exact (hrel.numberForText_eq hs).trans hs.symm

/-- Over cells that are up to date a formula stores what it stores at first. -/
theorem stored_of_upToDate (hw : w.Unresolved) (hacyclic : (r.environment w).Acyclic)
    (hstored : r.Faithful w) (hlength : v.length = w.length) {row col : Nat}
    (hc : w.cell? n row col = some c)
    (h : ∀ text, c.value.formula? = some text → ∀ k row' col', w.Mentions n text (k, row', col') →
      Option.Rel (r.UpToDate w k) (w.cell? k row' col') (v.cell? k row' col')) :
    r.stored v n c = r.stored w n c := by
  refine stored_of_rel hstored hc ?_
  refine evaluateFormula_rel respected_storedAs hlength.symm fun text ht k row' col' hmention => ?_
  have hcells := h text ht k row' col' hmention
  generalize hd : w.cell? k row' col' = x at hcells
  generalize hd' : v.cell? k row' col' = y at hcells
  cases hcells with
  | none =>
    show Option.Rel _ ((w.source _).read? k row' col') ((v.source _).read? k row' col')
    rw [source_read?_none w _ hd, source_read?_none v _ hd']
    exact .none
  | @some d _ hdate =>
    have hidle := hacyclic.noCycle (List.forall_mem_nil _)
      (mem_formulas_of_cell? hc ht : (n, text) ∈ (r.environment w).workbook.formulas)
    obtain ⟨e, he, m, hm, hk, hq⟩ := hmention
    have callee : ∀ inner, d.openFormula? = some inner →
        (r.environment w).NoCycle (.index k) inner (cellKey k inner) [cellKey n text] :=
      fun inner hinner => hidle.of_callee (f := (k, inner))
        (Environment.mem_callees (Environment.mem_mentions he hm)
          (mem_openFormulas hk hq hd hinner))
    obtain ⟨value, hval, hrel⟩ := exists_value_of_stored hstored hd hdate.stored
    rw [Environment.read?_of_noCycle hd (hw k _ _ d hd) callee hval,
      Environment.read?_of_resolved (r.environment v) hd' hdate.resolved]
    exact .some (.ok hrel)

end Resolver

end Spreadsheet
