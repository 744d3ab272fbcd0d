import Spreadsheet.Proofs.CycleCheck
import Spreadsheet.Proofs.SideBySide
import Spreadsheet.Workbook.Resolve

/-!
# Storing the values of formulas

A reference to a resolved cell reads what is stored there, a reference to any other cell the value
on demand. When a workbook is filled in, some of its cells store the values that they have with
nothing in progress. A formula free of cycles meets these cells while others are in progress, but
those do not show in the value (`formulaValue_eq_of_noCycle`); so it has the value that it had
before (`Filled.evaluateFormula_rel`, `evaluateFormula_store`). What is stored need only be related
to the value, as long as operators and functions respect the relation.
-/

namespace Spreadsheet

open Value Workbook

/-! ## Keys and formulas of the workbook -/

theorem formulaKey_index {n : Nat} {text key : String}
    (h : formulaKey (.index n) text = .ok key) : key = cellKey n text := by
  unfold formulaKey integerText Numeral.integerText? at h
  dsimp only at h
  split at h
  · next s hs =>
    split at hs
    · cases hs
      cases h
      rfl
    · cases hs
  · cases h

theorem evaluateFormula_of_plain (env : Environment) {content : Value} {table : TableId}
    {p : Progress} (ht : content.formula? = none) :
    evaluateFormula env content table p = .ok content := by
  unfold evaluateFormula
  rw [ht]

/-- With nothing in progress a formula has the value of its tree, with its own key in progress. -/
theorem evaluateFormula_eq_contain {env : Environment} {content : Value} {table : TableId}
    {text key : String} {e : Expr} (ht : content.formula? = some text)
    (hkey : formulaKey table text = .ok key) (he : env.parser text = .ok e) :
    evaluateFormula env content table [] =
      contain (e.value (env.source [key]) env.today table) := by
  unfold evaluateFormula
  rw [ht]
  dsimp only
  rw [hkey]
  show env.enter (env.source [key]) table text = _
  unfold Environment.enter
  rw [he]
  rfl

/-- A formula of the workbook with nothing in progress has its value on demand, if its key can be
written at all. -/
theorem evaluateFormula_of_member (env : Environment) {n : Nat} {content : Value} {text : String}
    (ht : content.formula? = some text) (hm : (n, text) ∈ env.workbook.formulas) :
    evaluateFormula env content (.index n) [] =
      (formulaKey (.index n) text >>= fun _ => env.formulaValue [] n text hm) := by
  unfold evaluateFormula
  rw [ht]
  dsimp only
  cases hkey : formulaKey (.index n) text with
  | error f => rfl
  | ok key =>
    rw [formulaKey_index hkey, env.formulaValue_of_not_mem hm List.not_mem_nil]
    rfl

namespace Environment

variable {env : Environment} {V : Value → Value → Prop} {v : Workbook}

/-- Where a formula is free of cycles beside others in progress, it is so with nothing in
progress. -/
theorem NoCycle.alone {table : TableId} {text key : String} {p : Progress}
    (h : env.NoCycle table text key p) : env.NoCycle table text key [] where
  idle := List.not_mem_nil
  reached_idle _ _ := List.not_mem_nil
  no_return := h.no_return
  acyclic := h.acyclic

/-- A resolved cell is read as it stores. -/
theorem read?_of_resolved (env : Environment) {n row col : Nat} {c : Cell} {p : Progress}
    (hc : env.workbook.cell? n row col = some c) (hr : c.resolved = true) :
    (env.source p).read? n row col = some (.ok c.resolvedValue) := by
  unfold source
  rw [source_read?_some env.workbook _ hc, Cell.read_of_resolved hr]
  rfl

/-- An unresolved cell whose formula is free of cycles is read, whatever is in progress, as what it
holds is evaluated with nothing in progress. -/
theorem read?_of_noCycle {n row col : Nat} {c : Cell} {p : Progress} {value : Value}
    (hc : env.workbook.cell? n row col = some c) (hnew : c.resolved = false)
    (hfree : ∀ text, c.openFormula? = some text →
      env.NoCycle (.index n) text (cellKey n text) p)
    (hval : evaluateFormula env c.value (.index n) [] = .ok value) :
    (env.source p).read? n row col = some (.ok value) := by
  unfold source
  rw [source_read?_some env.workbook _ hc]
  refine congrArg some ?_
  obtain ht | ⟨text, ht⟩ := Option.eq_none_or_eq_some c.value.formula?
  · rw [Cell.read_of_plain hnew ht]
    exact (evaluateFormula_of_plain env ht).symm.trans hval
  · have hm : (n, text) ∈ env.workbook.formulas := mem_formulas_of_cell? hc ht
    have hfree' := hfree text (Cell.openFormula?_eq_some.2 ⟨hnew, ht⟩)
    rw [Cell.read_of_formula hnew ht, env.formulaValue_eq_of_noCycle hm hfree' hfree'.alone]
    rw [evaluateFormula_of_member env ht hm] at hval
    cases hkey : formulaKey (.index n) text with
    | error f =>
      rw [hkey] at hval
      cases hval
    | ok key =>
      rw [hkey] at hval
      exact hval

/-! ## A workbook some cells of which are filled in -/

/-- A cell of the table with an index after a workbook was filled in: it reads as it did, or it
stores something that the value of the cell, with nothing in progress, is related to. -/
inductive FilledIn (env : Environment) (V : Value → Value → Prop) (n : Nat) : Cell → Cell → Prop
  | kept {c d : Cell} : c.ReadsAlike d → FilledIn env V n c d
  | stored {c d : Cell} {value : Value} : c.resolved = false →
    evaluateFormula env c.value (.index n) [] = .ok value → d.resolved = true →
    V value d.resolvedValue → FilledIn env V n c d

/-- A workbook is the one of an environment with some cells filled in. -/
structure Filled (env : Environment) (V : Value → Value → Prop) (v : Workbook) : Prop where
  length : v.length = env.workbook.length
  cell : ∀ n row col,
    Option.Rel (env.FilledIn V n) (env.workbook.cell? n row col) (v.cell? n row col)

/-- Where a formula is free of cycles, the filled workbook reads as before or as what is stored. -/
theorem Filled.carries (hV : Respected V) (hfill : env.Filled V v) :
    env.Carries v V env.NoCycle := by
  intro table text key p h ih m hm
  refine ⟨tableIndex?_congr hfill.length.symm _, fun k hk q hq => ?_⟩
  have callee : ∀ c inner, env.workbook.cell? k q.1 q.2 = some c → c.openFormula? = some inner →
      env.NoCycle (.index k) inner (cellKey k inner) (key :: p) := fun c inner hc ht =>
    h.of_callee (f := (k, inner)) (mem_callees hm (mem_openFormulas hk hq hc ht))
  have hcells := hfill.cell k q.1 q.2
  generalize hc : env.workbook.cell? k q.1 q.2 = x at hcells
  generalize hd : v.cell? k q.1 q.2 = y at hcells
  have kept : Option.Rel Cell.ReadsAlike x y → Option.Rel (OutcomeRel V)
      ((env.source (key :: p)).read? k q.1 q.2)
      (((env.forWorkbook v).source (key :: p)).read? k q.1 q.2) := fun halike =>
    source_read?_rel Simulation.plain hV (by rw [hc]; exact hd ▸ halike)
      fun c inner hm hm' hc ht => ih k inner hm hm' (callee c inner hc ht)
  cases hcells with
  | none => exact kept .none
  | some hin =>
    cases hin with
    | kept halike => exact kept (.some halike)
    | stored hnew hval hr hrel =>
      rw [read?_of_noCycle hc hnew (fun inner => callee _ inner hc) hval,
        read?_of_resolved (env.forWorkbook v) hd hr]
      exact .some (.ok hrel)

/-- What a cell holds has related values before and after a workbook is filled in, when its formula
is free of cycles. -/
theorem Filled.evaluateFormula_rel (hV : Respected V) (hfill : env.Filled V v) {content : Value}
    {table : TableId} {p : Progress}
    (hfree : ∀ text key, content.formula? = some text → formulaKey table text = .ok key →
      env.NoCycle table text key p) :
    OutcomeRel V (evaluateFormula env content table p)
      (evaluateFormula (env.forWorkbook v) content table p) :=
  (hfill.carries hV).evaluateFormula_rel hV hfree

/-- A workbook is filled in by storing the value of one unresolved cell. -/
theorem filled_store {n row col : Nat} {c : Cell} {value : Value}
    (hc : env.workbook.cell? n row col = some c) (hnew : c.resolved = false)
    (hval : evaluateFormula env c.value (.index n) [] = .ok value) :
    env.Filled (fun x y => x = y)
      (env.workbook.modifyCell n row col fun c => Resolver.store c value) where
  length := length_modifyCell ..
  cell n' row' col' := by
    rw [cell?_modifyCell]
    by_cases hp : (n', row', col') = (n, row, col)
    · cases hp
      rw [hc, Option.map_some, if_pos rfl]
      exact .some (.stored hnew hval rfl rfl)
    · simp only [hp, if_false, Option.map_id']
      cases env.workbook.cell? n' row' col' with
      | none => exact .none
      | some d => exact .some (.kept (.refl d))

end Environment

/-- **Storing is transparent.** After an unresolved cell stored exactly the value that its formula
has, every formula from which no cycle is reached has, read for any table, the value that it had
before. -/
theorem evaluateFormula_store (env : Environment) {n row col : Nat} {c : Cell} {value : Value}
    (hc : env.workbook.cell? n row col = some c) (hnew : c.resolved = false)
    (hval : evaluateFormula env c.value (.index n) [] = .ok value) (content : Value)
    (table : TableId)
    (hfree : ∀ text key, content.formula? = some text → formulaKey table text = .ok key →
      env.NoCycle table text key []) :
    evaluateFormula (env.forWorkbook
        (env.workbook.modifyCell n row col fun c => Resolver.store c value)) content table [] =
      evaluateFormula env content table [] :=
  ((Environment.filled_store hc hnew hval).evaluateFormula_rel respected_eq hfree).eq.symm

/-! ## The bottom of a diamond -/

theorem diamond_sum :
    evaluateFormula diamond (.text "=SUM(A2:A3)") (.index 1) [] = .ok (.int 4) := by
  have hformula : Value.formula? (.text "=SUM(A2:A3)") = some "=SUM(A2:A3)" := by rfl
  have hkey : formulaKey (.index 1) "=SUM(A2:A3)" = .ok (cellKey 1 "=SUM(A2:A3)") := by rfl
  have hparse : diamond.parser "=SUM(A2:A3)" = .ok (.call "SUM" [.range "A2:A3" none]) := by cbv
  have hrange : (diamond.source [cellKey 1 "=SUM(A2:A3)"]).rangeNumbers (.index 1) "A2:A3" =
      .ok (some [.int 4]) := by
    rfl
  rw [evaluateFormula_eq_contain hformula hkey hparse]
  simp only [Expr.value, Expr.flatValues, Option.getD_none, hrange]
  rfl

/-- The sum at the bottom of the diamond is stored and the formula at its top has its value as
before. -/
theorem diamond_store :
    diamond.workbook.cell? 1 0 0 = some { value := .text "=SUM(A2:A3)" } ∧
    evaluateFormula diamond (.text "=SUM(A2:A3)") (.index 1) [] = .ok (.int 4) ∧
    diamond.NoCycle (.index 0) "=A2+A3" (cellKey 0 "=A2+A3") [] ∧
    evaluateFormula (diamond.forWorkbook
        (diamond.workbook.modifyCell 1 0 0 fun c => Resolver.store c (.int 4)))
        (.text "=A2+A3") (.index 0) [] =
      evaluateFormula diamond (.text "=A2+A3") (.index 0) [] := by
  have hfree : diamond.NoCycle (.index 0) "=A2+A3" (cellKey 0 "=A2+A3") [] := by
    refine diamond_acyclic.noCycle (f := (0, "=A2+A3")) (List.forall_mem_nil _) ?_
    rw [diamond_formulas]
    exact List.mem_cons_self
  refine ⟨rfl, diamond_sum, hfree, ?_⟩
  refine evaluateFormula_store diamond rfl rfl diamond_sum _ _ ?_
  intro text key ht hkey
  cases ht
  cases formulaKey_index hkey
  exact hfree

end Spreadsheet
