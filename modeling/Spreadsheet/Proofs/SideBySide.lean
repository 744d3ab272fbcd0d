import Spreadsheet.Proofs.Dependency

/-!
# Two workbooks side by side

A formula is evaluated over two workbooks, by the same parser and on the same day. A condition on
formulas and keys in progress carries over when wherever it holds the two workbooks read related
values at all that the formula mentions, given that they do so for the formulas which meet the
condition one call further. Then every formula that meets it has related values
(`Carries.evaluateFormula_rel`). The induction along calls is made here once; what remains for each
pair of workbooks is to compare their cells.
-/

namespace Spreadsheet

open Value Workbook

namespace Environment

variable {env : Environment} {v : Workbook} {V : Value → Value → Prop}
  {Q : TableId → String → String → Progress → Prop}

/-- The condition `Q` on a formula, its table, its key and the keys in progress lets two workbooks
read related values at what the formula mentions, if it does so one call further. -/
def Carries (env : Environment) (v : Workbook) (V : Value → Value → Prop)
    (Q : TableId → String → String → Progress → Prop) : Prop :=
  ∀ table text key p, Q table text key p →
    (∀ (k : Nat) inner hm hm', Q (.index k) inner (cellKey k inner) (key :: p) →
      OutcomeRel V (env.formulaValue (key :: p) k inner hm)
        ((env.forWorkbook v).formulaValue (key :: p) k inner hm')) →
    ∀ m ∈ env.mentions table text,
      (env.source (key :: p)).Matches Simulation.plain V ((env.forWorkbook v).source (key :: p)) m

/-- A formula has related values over two workbooks that match at what it mentions. -/
theorem enter_rel (hV : Respected V) {table : TableId} {text : String} {p : Progress}
    (h : ∀ m ∈ env.mentions table text,
      (env.source p).Matches Simulation.plain V ((env.forWorkbook v).source p) m) :
    OutcomeRel V (env.enter (env.source p) table text)
      ((env.forWorkbook v).enter ((env.forWorkbook v).source p) table text) := by
  refine Simulation.plain.contain hV ?_
  refine Simulation.plain.bind (Simulation.plain.ofExcept_self _) ?_
  rintro e _ ⟨he, rfl⟩
  exact Expr.value_rel Simulation.plain env.today _ hV e fun m hm => h m (mem_mentions he hm)

/-- A formula that is called has related values over the two workbooks. The induction is on the
number of keys that are not in progress; a key that is in progress is so on both sides. -/
theorem Carries.formulaValue_rel (hV : Respected V) (h : env.Carries v V Q) (depth : Nat) :
    ∀ (n : Nat) (text : String) (p : Progress) (hm : (n, text) ∈ env.workbook.formulas)
    (hm' : (n, text) ∈ v.formulas), Q (.index n) text (cellKey n text) p →
    env.workbook.remaining p ≤ depth →
    OutcomeRel V (env.formulaValue p n text hm)
      ((env.forWorkbook v).formulaValue p n text hm') := by
  induction depth with
  | zero =>
    intro n text p hm hm' _ hd
    by_cases hkey : cellKey n text ∈ p
    · rw [env.formulaValue_of_mem hm hkey, (env.forWorkbook v).formulaValue_of_mem hm' hkey]
      exact .ok (hV.refl _)
    · have := remaining_cons_lt (cellKey_mem_keys hm) hkey
      omega
  | succ depth ih =>
    intro n text p hm hm' hq hd
    by_cases hkey : cellKey n text ∈ p
    · rw [env.formulaValue_of_mem hm hkey, (env.forWorkbook v).formulaValue_of_mem hm' hkey]
      exact .ok (hV.refl _)
    · have hlt := remaining_cons_lt (cellKey_mem_keys hm) hkey
      rw [env.formulaValue_of_not_mem hm hkey, (env.forWorkbook v).formulaValue_of_not_mem hm' hkey]
      refine enter_rel hV (h _ _ _ _ hq fun k inner hk hk' hq' => ?_)
      exact ih k inner _ hk hk' hq' (by omega)

/-- What a cell holds has related values over the two workbooks. -/
theorem Carries.evaluateFormula_rel (hV : Respected V) (h : env.Carries v V Q) {content : Value}
    {table : TableId} {p : Progress}
    (hq : ∀ text key, content.formula? = some text → formulaKey table text = .ok key →
      Q table text key p) :
    OutcomeRel V (evaluateFormula env content table p)
      (evaluateFormula (env.forWorkbook v) content table p) := by
  unfold evaluateFormula
  obtain ht | ⟨text, ht⟩ := Option.eq_none_or_eq_some content.formula?
  · rw [ht]
    exact .ok (hV.refl _)
  · rw [ht]
    refine Simulation.plain.bind (.self (formulaKey table text)) ?_
    rintro key _ ⟨hkey, rfl⟩
    split
    · exact .ok (hV.refl _)
    · refine enter_rel hV (h _ _ _ _ (hq text key ht hkey) fun k inner hm hm' hq' => ?_)
      exact h.formulaValue_rel hV _ k inner _ hm hm' hq' (Nat.le_refl _)

end Environment

end Spreadsheet
