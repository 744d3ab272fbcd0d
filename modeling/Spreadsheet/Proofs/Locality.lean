import Mathlib
import Spreadsheet.Proofs.SideBySide

/-!
# A formula depends only on what it can reach

An evaluation looks at nothing but the tables and positions of a closed scope that holds its
formula. So two workbooks that agree on such a scope give the formula one value, whatever they hold
elsewhere and whatever is in progress (`evaluateFormula_agree`). No condition on cycles is needed: a
key that is in progress is so in both evaluations.
-/

namespace Spreadsheet

open Value Workbook

theorem Workbook.tableIndex?_of_isSome {w v : Workbook} {t : TableId}
    (h : (w.tableIndex? t).isSome = (v.tableIndex? t).isSome) :
    w.tableIndex? t = v.tableIndex? t := by
  cases t with
  | other _ => rfl
  | index n =>
    simp only [tableIndex?] at h ⊢
    by_cases hw : 0 ≤ n ∧ n < w.length
    · by_cases hv : 0 ≤ n ∧ n < v.length
      · rw [if_pos hw, if_pos hv]
      · rw [if_pos hw, if_neg hv] at h
        cases h
    · by_cases hv : 0 ≤ n ∧ n < v.length
      · rw [if_neg hw, if_pos hv] at h
        cases h
      · rw [if_neg hw, if_neg hv]

/-- Inside a closed scope two workbooks that agree on it are read alike. -/
theorem Scope.carries {s : Scope} {env : Environment} {v : Workbook} (hclosed : s.Closed env)
    (hagree : s.Agree env.workbook v) :
    env.Carries v (fun x y => x = y) fun table text _ _ => s.Holds env table text := by
  intro table text key p hholds ih m hm
  refine ⟨tableIndex?_of_isSome (hagree.tables _ (hholds.tables m hm)), fun k hk q hq => ?_⟩
  have hq' := hholds.positions m hm k hk q hq
  refine source_read?_rel Simulation.plain respected_eq (hagree.cells _ _ _ hq')
    fun c inner hc hc' hcell ht => ?_
  exact ih k inner hc hc' (hclosed _ _ _ _ _ hq' hcell ht)

/-- **Locality.** Over two workbooks that agree on a closed scope which holds the formula, the
formula has the same value for every table, with any formulas in progress. So nothing outside the
scope shows in it: neither an edit there, nor cells, rows and tables that are appended. -/
theorem evaluateFormula_agree (env : Environment) (v : Workbook) (s : Scope) (content : Value)
    (table : TableId) (p : Progress)
    (hholds : ∀ text, content.formula? = some text → s.Holds env table text)
    (hclosed : s.Closed env) (hagree : s.Agree env.workbook v) :
    evaluateFormula env content table p = evaluateFormula (env.forWorkbook v) content table p :=
  OutcomeRel.eq <| (s.carries hclosed hagree).evaluateFormula_rel respected_eq
    fun text _ ht _ => hholds text ht

/-! ## Changes all around a sum -/

/-- A sum over a ragged range and a cell of another table. -/
abbrev sumText : String := "=SUM(A2:B3)+T1!A1"

/-- Two tables, the first with the sum and with a formula in the range that it covers. -/
def ragged : Environment where
  workbook :=
    [[[{ value := .text sumText }, { value := .text "x" }],
      [{ value := .int 1 }, { value := .text "=A3*2" }],
      [{ value := .int 5 }]],
     [[{ value := .int 7 }]]]
  parser := parseFormula
  today := .first

/-- The same tables with a cell edited and others reformatted, cells and rows appended to both, and
a table behind them. -/
def surrounded : Workbook :=
  [[[{ value := .text sumText }, { value := .int 99 }, { value := .text "=T2!A1" }],
    [{ value := .int 1, format := some "0.00" },
      { value := .text "=A3*2", textColor := some "red" }, { value := .int 8 }],
    [{ value := .int 5 }],
    [{ value := .text "=A1" }]],
   [[{ value := .int 7 }], [{ value := .int 3 }]],
   [[{ value := .text "=T0!A1" }]]]

/-- The positions that the sum reaches: the range with its missing corner, and the cell of the other
table. -/
abbrev sumPositions : List (Nat × Nat × Nat) :=
  [(0, 1, 0), (0, 1, 1), (0, 2, 0), (0, 2, 1), (1, 0, 0)]

/-- What the sum reaches. -/
def sumScope : Scope where
  positions := { q | q ∈ sumPositions }
  tables := { t | t = .index 0 ∨ t = .index 1 }

theorem sumScope_holds : sumScope.Holds ragged (.index 0) sumText := by
  have hmentions : ragged.mentions (.index 0) sumText =
      [.range (.index 0) "A2:B3", .cell (.index 1) "A1"] := by cbv
  have hrange : Mention.positions (.range (.index 0) "A2:B3") =
      [(1, 0), (1, 1), (2, 0), (2, 1)] := by rfl
  have hcell : Mention.positions (.cell (.index 1) "A1") = [(0, 0)] := by rfl
  constructor
  · rw [hmentions]
    intro m hm
    fin_cases hm
    · exact .inl rfl
    · exact .inr rfl
  · rw [hmentions]
    intro m hm k hk q hq
    show (k, q) ∈ sumPositions
    fin_cases hm
    · cases hk
      rw [hrange] at hq
      fin_cases hq <;> decide
    · cases hk
      rw [hcell] at hq
      fin_cases hq
      decide

theorem sumScope_holds_corner : sumScope.Holds ragged (.index 0) "=A3*2" := by
  have hmentions : ragged.mentions (.index 0) "=A3*2" = [.cell (.index 0) "A3"] := by cbv
  have hcell : Mention.positions (.cell (.index 0) "A3") = [(2, 0)] := by rfl
  constructor
  · rw [hmentions]
    intro m hm
    fin_cases hm
    exact .inl rfl
  · rw [hmentions]
    intro m hm k hk q hq
    show (k, q) ∈ sumPositions
    fin_cases hm
    cases hk
    rw [hcell] at hq
    fin_cases hq
    decide

theorem sumScope_closed : sumScope.Closed ragged := by
  have hopen : ∀ q ∈ sumPositions, ∀ text,
      (ragged.workbook.cell? q.1 q.2.1 q.2.2).bind Cell.openFormula? = some text →
      q = (0, 1, 1) ∧ text = "=A3*2" := by
    intro q hq
    fin_cases hq <;> intro text ht <;> cases ht
    exact ⟨rfl, rfl⟩
  intro n row col c text hq hc ht
  obtain ⟨hp, rfl⟩ := hopen (n, row, col) hq text (by rw [hc]; exact ht)
  cases hp
  exact sumScope_holds_corner

theorem sumScope_agree : sumScope.Agree ragged.workbook surrounded := by
  constructor
  · intro n row col hq
    have main : ∀ q ∈ sumPositions, Option.Rel Cell.ReadsAlike
        (ragged.workbook.cell? q.1 q.2.1 q.2.2) (surrounded.cell? q.1 q.2.1 q.2.2) := by
      intro q hq
      fin_cases hq
      · exact .some (.unresolved rfl rfl rfl)
      · exact .some (.unresolved rfl rfl rfl)
      · exact .some (.unresolved rfl rfl rfl)
      · exact .none
      · exact .some (.unresolved rfl rfl rfl)
    exact main (n, row, col) hq
  · rintro t (rfl | rfl) <;> rfl

/-- The sum has one value in both workbooks, with a formula of the second table in progress. -/
theorem surrounded_sum :
    sumScope.Holds ragged (.index 0) sumText ∧ sumScope.Closed ragged ∧
    sumScope.Agree ragged.workbook surrounded ∧
    evaluateFormula ragged (.text sumText) (.index 0) ["1:=B1"] =
      evaluateFormula (ragged.forWorkbook surrounded) (.text sumText) (.index 0) ["1:=B1"] := by
  have hholds : ∀ text, Value.formula? (.text sumText) = some text →
      sumScope.Holds ragged (.index 0) text := by
    intro text ht
    cases ht
    exact sumScope_holds
  exact ⟨sumScope_holds, sumScope_closed, sumScope_agree,
    evaluateFormula_agree ragged surrounded sumScope _ _ _ hholds sumScope_closed sumScope_agree⟩

end Spreadsheet
