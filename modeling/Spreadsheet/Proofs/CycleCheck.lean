import Mathlib
import Spreadsheet.Formula.Unguarded
import Spreadsheet.Proofs.Dependency

/-!
# The check for cycles does not show without a cycle

A formula that is free of cycles beside the formulas in progress has the same value with the check
as without it, and so the same value whatever else is in progress (`evaluateFormula_eq_unguarded`).
No way along calls is then longer than the number of the workbook's keys: nested as deep as that,
the evaluator without the check has an answer.
-/

namespace Spreadsheet

open Value MonadExcept

/-! ## Plain evaluation against evaluation to a depth -/

/-- A plain computation beside one to a limited depth that has an answer. -/
def Simulation.answered : Simulation (Except Fault) (ExceptT Fault Option) where
  Rel R x y := ∃ z, y.run = some z ∧ OutcomeRel R x z
  pure h := ⟨_, rfl, .ok h⟩
  bind := by
    rintro α β γ δ R S x y f g ⟨z, hz, hxz⟩ hfg
    cases hxz with
    | ok h =>
      obtain ⟨u, hu, hfu⟩ := hfg _ _ h
      refine ⟨u, ?_, hfu⟩
      rw [ExceptT.run_bind, hz]
      exact hu
    | error e =>
      refine ⟨.error e, ?_, .error e⟩
      rw [ExceptT.run_bind, hz]
      rfl
  throw f := ⟨_, rfl, .error f⟩
  handle := by
    rintro α β R x y h k ⟨z, hz, hxz⟩ hhk
    cases hxz with
    | @ok a b h =>
      refine ⟨.ok b, ?_, .ok h⟩
      show y.run >>= _ = _
      rw [hz]
      rfl
    | error f =>
      obtain ⟨u, hu, hfu⟩ := hhk f
      refine ⟨u, ?_, hfu⟩
      show y.run >>= _ = _
      rw [hz]
      exact hu

theorem Simulation.answered_eq {x : Except Fault Value} {y : ExceptT Fault Option Value}
    (h : Simulation.answered.Rel (fun a b => a = b) x y) : y.run = some x := by
  obtain ⟨z, hz, hxz⟩ := h
  rw [hz, hxz.eq]

namespace Environment

variable (env : Environment)

/-- A formula has one value with and without the check when the formulas that it calls have. -/
theorem enter_answered {depth : Nat} {table : TableId} {text : String} {p : Progress}
    (h : ∀ f hf, f ∈ env.callees table text → Simulation.answered.Rel (fun a b => a = b)
      (env.formulaValue p f.1 f.2 hf) (env.unguarded depth f.1 f.2)) :
    Simulation.answered.Rel (fun a b => a = b) (env.enter (env.source p) table text)
      (env.enter (env.unguardedSource depth) table text) := by
  refine Simulation.answered.contain respected_eq ?_
  refine Simulation.answered.bind (Simulation.answered.ofExcept_self _) ?_
  rintro e _ ⟨he, rfl⟩
  refine Expr.value_rel _ env.today _ respected_eq e fun r hr => ?_
  refine Workbook.source_matches _ respected_eq _ fun n inner hm hheld => ?_
  exact h (n, inner) hm (mem_callees (mem_mentions he hr) hheld)

/-- A formula that is called without a cycle has one value with the check and without it. The
induction is on the depth, which covers the keys that are not in progress. -/
theorem formulaValue_answered (depth : Nat) : ∀ (n : Nat) (text : String) (p : Progress)
    (hm : (n, text) ∈ env.workbook.formulas),
    env.NoCycle (.index n) text (cellKey n text) p → env.workbook.remaining p ≤ depth →
    Simulation.answered.Rel (fun a b => a = b) (env.formulaValue p n text hm)
      (env.unguarded depth n text) := by
  induction depth with
  | zero =>
    intro n text p hm h hd
    have := Workbook.remaining_cons_lt (Workbook.cellKey_mem_keys hm) h.idle
    omega
  | succ depth ih =>
    intro n text p hm h hd
    have hlt := Workbook.remaining_cons_lt (Workbook.cellKey_mem_keys hm) h.idle
    rw [env.formulaValue_of_not_mem hm h.idle]
    refine env.enter_answered fun f hf hcall => ?_
    exact ih f.1 f.2 _ hf (h.of_callee hcall) (by omega)

/-- The formulas in progress do not show in the value of a formula that is free of cycles beside
them. -/
theorem formulaValue_eq_of_noCycle {n : Nat} {text : String} {p q : Progress}
    (hm : (n, text) ∈ env.workbook.formulas) (hp : env.NoCycle (.index n) text (cellKey n text) p)
    (hq : env.NoCycle (.index n) text (cellKey n text) q) :
    env.formulaValue p n text hm = env.formulaValue q n text hm := by
  have atP := env.formulaValue_answered _ n text p hm hp (env.workbook.remaining_le p)
  have atQ := env.formulaValue_answered _ n text q hm hq (env.workbook.remaining_le q)
  refine Option.some.inj ?_
  rw [← Simulation.answered_eq atP, Simulation.answered_eq atQ]

end Environment

/-- **The check does not show.** A formula that is free of cycles beside the formulas in progress
has the value that the evaluator without the check gives it, nested as deep as the workbook has
keys or deeper; so it has the same value beside any other formulas in progress with which it is
free of cycles too. -/
theorem evaluateFormula_eq_unguarded (env : Environment) (content : Value) (table : TableId)
    (p : Progress)
    (h : ∀ text key, content.formula? = some text → formulaKey table text = .ok key →
      env.NoCycle table text key p) :
    (∀ depth, env.workbook.keys.toFinset.card ≤ depth →
      (unguardedFormula env depth content table).run = some (evaluateFormula env content table p)) ∧
    ∀ q, (∀ text key, content.formula? = some text → formulaKey table text = .ok key →
      env.NoCycle table text key q) →
      evaluateFormula env content table q = evaluateFormula env content table p := by
  have main : ∀ q, (∀ text key, content.formula? = some text → formulaKey table text = .ok key →
      env.NoCycle table text key q) → ∀ depth, env.workbook.keys.toFinset.card ≤ depth →
      (unguardedFormula env depth content table).run =
        some (evaluateFormula env content table q) := by
    intro q h depth hd
    unfold unguardedFormula evaluateFormula
    cases ht : content.formula? with
    | none => rfl
    | some text =>
      refine Simulation.answered_eq ?_
      dsimp only
      have hself := Simulation.answered.ofExcept_self (formulaKey table text)
      rw [ofExcept_except] at hself
      refine Simulation.answered.bind hself ?_
      rintro key _ ⟨hkey, rfl⟩
      have hfree := h text key ht hkey
      rw [if_neg hfree.idle]
      refine env.enter_answered fun f hf hcall => ?_
      refine env.formulaValue_answered depth f.1 f.2 _ hf (hfree.of_callee hcall) ?_
      exact (env.workbook.remaining_le _).trans hd
  refine ⟨main p h, fun q hq => ?_⟩
  have hp := main p h _ (Nat.le_refl _)
  rw [main q hq _ (Nat.le_refl _)] at hp
  exact Option.some.inj hp

/-! ## A diamond of formulas -/

/-- A formula over two cells with one text, which reads a sum in another table. -/
def diamond : Environment where
  workbook :=
    [[[{ value := .text "=A2+A3" }], [{ value := .text "=T1!A1" }], [{ value := .text "=T1!A1" }]],
     [[{ value := .text "=SUM(A2:A3)" }], [{ value := .int 4 }], [{ value := .text "x" }]]]
  parser := parseFormula
  today := .first

theorem diamond_formulas : diamond.workbook.formulas =
    [(0, "=A2+A3"), (0, "=T1!A1"), (0, "=T1!A1"), (1, "=SUM(A2:A3)")] := by
  cbv

theorem diamond_acyclic : diamond.Acyclic := by
  have top : diamond.callees (.index 0) "=A2+A3" = [(0, "=T1!A1"), (0, "=T1!A1")] := by cbv
  have middle : diamond.callees (.index 0) "=T1!A1" = [(1, "=SUM(A2:A3)")] := by cbv
  have bottom : diamond.callees (.index 1) "=SUM(A2:A3)" = [] := by cbv
  refine Environment.Acyclic.of_measure
    (fun key => if key = "0:=A2+A3" then 2 else if key = "0:=T1!A1" then 1 else 0) ?_
  rw [diamond_formulas]
  intro f hf
  fin_cases hf
  · show ∀ g ∈ diamond.callees (.index 0) "=A2+A3", _
    rw [top]
    decide
  · show ∀ g ∈ diamond.callees (.index 0) "=T1!A1", _
    rw [middle]
    decide
  · show ∀ g ∈ diamond.callees (.index 0) "=T1!A1", _
    rw [middle]
    decide
  · show ∀ g ∈ diamond.callees (.index 1) "=SUM(A2:A3)", _
    rw [bottom]
    decide

/-- At the top of the diamond, with the same text in progress for the other table. -/
theorem diamond_eq_unguarded :
    (∀ depth, diamond.workbook.keys.toFinset.card ≤ depth →
      (unguardedFormula diamond depth (.text "=A2+A3") (.index 0)).run =
        some (evaluateFormula diamond (.text "=A2+A3") (.index 0) ["1:=A2+A3"])) ∧
    evaluateFormula diamond (.text "=A2+A3") (.index 0) [] =
      evaluateFormula diamond (.text "=A2+A3") (.index 0) ["1:=A2+A3"] := by
  have idle : "1:=A2+A3" ∉ diamond.workbook.keys := by
    unfold Workbook.keys
    rw [diamond_formulas]
    decide
  have member : (0, "=A2+A3") ∈ diamond.workbook.formulas := by
    rw [diamond_formulas]
    exact List.mem_cons_self
  have free : ∀ p : Progress, (∀ k ∈ p, k ∉ diamond.workbook.keys) → ∀ text key,
      Value.formula? (.text "=A2+A3") = some text → formulaKey (.index 0) text = .ok key →
      diamond.NoCycle (.index 0) text key p := by
    intro p hp text key htext hkey
    have htext' : text = "=A2+A3" := by
      have h : Value.formula? (.text "=A2+A3") = some "=A2+A3" := by decide
      exact Option.some.inj (htext.symm.trans h)
    subst htext'
    have hkey' : key = cellKey 0 "=A2+A3" := by
      have h : formulaKey (.index 0) "=A2+A3" = .ok (cellKey 0 "=A2+A3") := by rfl
      exact Except.ok.inj (hkey.symm.trans h)
    subst hkey'
    exact diamond_acyclic.noCycle hp member
  have main := evaluateFormula_eq_unguarded diamond (.text "=A2+A3") (.index 0) ["1:=A2+A3"]
    (free _ (List.forall_mem_singleton.2 idle))
  exact ⟨main.1, main.2 [] (free [] fun k hk => absurd hk List.not_mem_nil)⟩

end Spreadsheet
