import Mathlib
import Spreadsheet.Proofs.Containment

/-!
# Errors in arithmetic

An operator takes numbers, blanks counting as zero, and gives a number, a truth value, `#ERROR!` or,
for a division by zero, `#DIV/0!`. What counts as no number spoils it, whatever the operator and the
other operand, and `#ERROR!` counts as none itself; so a spoiled operand shows at the top of all the
operators above it, and no sentinel but `#DIV/0!` of the topmost one comes out of them
(`evaluate_operators`).
-/

namespace Spreadsheet

open Calendar

/-! ## What operators give -/

/-- A computation whose contained faults are made errors gives its own value or an error. -/
theorem contain_eq_ok {x : Except Fault Value} {v : Value} (h : contain x = .ok v) :
    x = .ok v ∨ v = Sentinel.error.value := by
  cases x with
  | ok w => exact .inl h
  | error f =>
    refine .inr ?_
    change (if f.isContained then pure Sentinel.error.value else throwThe Fault f) =
      (.ok v : Except Fault Value) at h
    split at h
    · cases h
      rfl
    · cases h

theorem Number.toValue_ne_sentinel (n : Number) (k : Sentinel) : n.toValue ≠ k.value := by
  cases n <;> exact Value.noConfusion

/-- An operator between two numbers gives a number, a truth value, an error or, where it divides by
zero, the sentinel for that. -/
theorem Operator.apply_cases {op : Operator} {a b : Number} {v : Value} (h : op.apply a b = .ok v) :
    (∀ k : Sentinel, v ≠ k.value) ∨ v = Sentinel.error.value ∨
      v = Sentinel.divisionByZero.value ∧ op = .div ∧ b.isZero = true := by
  have number : ∀ {x : Except Fault Number}, (do return (← x).toValue) = Except.ok v →
      ∀ k : Sentinel, v ≠ k.value := by
    intro x hx
    obtain ⟨n, -, hn⟩ := exists_of_bind hx
    cases hn
    exact n.toValue_ne_sentinel
  have truth : ∀ {c : Bool}, (.ok (.bool c) : Except Fault Value) = .ok v →
      ∀ k : Sentinel, v ≠ k.value := by
    intro c hc k
    cases hc
    exact Value.noConfusion
  cases op with
  | add => exact .inl (number h)
  | sub => exact .inl (number h)
  | mul => exact .inl (number h)
  | div =>
    simp only [apply] at h
    split at h
    · next hzero =>
      cases h
      exact .inr (.inr ⟨rfl, rfl, hzero⟩)
    · exact .inl (number h)
  | pow =>
    obtain ⟨n, -, hn⟩ := exists_of_bind h
    cases hn
    cases n with
    | none => exact .inr (.inl rfl)
    | some n => exact .inl n.toValue_ne_sentinel
  | other symbol => cases h
  | _ => exact .inl (truth h)

/-! ## Values of trees of operators -/

theorem Value.isNoOperand_iff {v : Value} :
    v.IsNoOperand ↔ v.isBlank = false ∧ ∀ n, v.number? ≠ .ok (some n) := by
  unfold IsNoOperand operand?
  cases v.isBlank <;> simp

theorem Sentinel.isNoOperand (k : Sentinel) : k.value.IsNoOperand := by
  refine Value.isNoOperand_iff.2 ⟨by cases k <;> cbv, fun n h => ?_⟩
  rw [k.number?_value] at h
  cases h

namespace Expr

variable {s : Source (Except Fault)} (today : Date) (table : TableId)

/-- What an operator has as value is an error, or its result for the numbers of its operands. -/
theorem exists_of_value_binary {op : Operator} {left right : Expr} {u : Value}
    (h : (Expr.binary op left right).value s today table = .ok u) :
    u = Sentinel.error.value ∨ left.isRange = false ∧ right.isRange = false ∧
      ∃ v w a b, left.value s today table = .ok v ∧ right.value s today table = .ok w ∧
        operand? v = .ok (some a) ∧ operand? w = .ok (some b) ∧ op.apply a b = .ok u := by
  unfold value at h
  rcases contain_eq_ok h with h | rfl
  · dsimp only at h
    split at h
    · cases h
      exact .inl rfl
    · next hrange =>
      simp only [ofExcept_except] at h
      obtain ⟨v, hv, h⟩ := exists_of_bind h
      obtain ⟨a, ha, h⟩ := exists_of_bind h
      obtain ⟨w, hw, h⟩ := exists_of_bind h
      obtain ⟨b, hb, h⟩ := exists_of_bind h
      rw [Bool.not_eq_true, Bool.or_eq_false_iff] at hrange
      split at h
      · exact .inr ⟨hrange.1, hrange.2, v, w, _, _, hv, hw, ha, hb, h⟩
      · cases h
        exact .inl rfl
  · exact .inl rfl

/-- An operand without a number makes everything above it an error. The induction is on the
operators above: the error below each of them is no number either. -/
theorem value_of_operandOf (hs : s.Answers) {part e : Expr} (h : part.OperandOf e)
    (hpart : part.isRange = true ∨ ∃ v, part.value s today table = .ok v ∧ v.IsNoOperand) :
    e.value s today table = .ok Sentinel.error.value := by
  induction h with
  | @left op right =>
    rcases hpart with hrange | ⟨v, hv, hno⟩
    · exact value_binary_of_range today table op (by rw [hrange, Bool.true_or])
    · exact value_of_fails today table hs (.left hv hno)
  | @right op left =>
    rcases hpart with hrange | ⟨v, hv, hno⟩
    · exact value_binary_of_range today table op (by rw [hrange, Bool.or_true])
    · exact value_of_fails today table hs (.right hv hno)
  | inLeft _ ih => exact value_of_fails today table hs (.left ih Sentinel.error.isNoOperand)
  | inRight _ ih => exact value_of_fails today table hs (.right ih Sentinel.error.isNoOperand)

/-- An operator has the value `#DIV/0!` exactly where it divides a number by zero. -/
theorem value_binary_eq_divisionByZero {op : Operator} {left right : Expr} :
    (Expr.binary op left right).value s today table = .ok Sentinel.divisionByZero.value ↔
      op = .div ∧ left.isRange = false ∧ right.isRange = false ∧
      ∃ v w a b, left.value s today table = .ok v ∧ right.value s today table = .ok w ∧
        operand? v = .ok (some a) ∧ operand? w = .ok (some b) ∧ b.isZero = true := by
  constructor
  · intro h
    rcases exists_of_value_binary today table h with he | ⟨hl, hr, v, w, a, b, hv, hw, ha, hb, hu⟩
    · exact absurd (Sentinel.value_injective he) (by decide)
    · rcases Operator.apply_cases hu with hne | he | ⟨-, rfl, hzero⟩
      · exact absurd rfl (hne _)
      · exact absurd (Sentinel.value_injective he) (by decide)
      · exact ⟨rfl, hl, hr, v, w, a, b, hv, hw, ha, hb, hzero⟩
  · rintro ⟨rfl, hl, hr, v, w, a, b, hv, hw, ha, hb, hzero⟩
    rw [value_binary_of_values today table .div (by rw [hl, hr]; rfl) hv hw, ha, hb]
    show contain (if b.isZero then _ else _) = _
    rw [if_pos hzero]
    rfl

/-- An operator has no other sentinel as value. -/
theorem value_binary_ne_sentinel {op : Operator} {left right : Expr} {k : Sentinel}
    (herror : k ≠ .error) (hdivision : k ≠ .divisionByZero) :
    (Expr.binary op left right).value s today table ≠ .ok k.value := by
  intro h
  rcases exists_of_value_binary today table h with he | ⟨-, -, v, w, a, b, -, -, -, -, hu⟩
  · exact herror (Sentinel.value_injective he)
  · rcases Operator.apply_cases hu with hne | he | ⟨he, -⟩
    · exact hne k rfl
    · exact herror (Sentinel.value_injective he)
    · exact hdivision (Sentinel.value_injective he)

end Expr

/-- **Errors do not vanish in arithmetic.** Where a range, or something that is neither blank nor a
number, stands below operators, however deep, the whole is `#ERROR!`, whatever the operators, their
other operands, the workbook and the formulas in progress. Beyond that an operator is never `#REF!`
or `#CIRCULAR!`, and it is `#DIV/0!` exactly where it divides a number by zero itself. -/
theorem evaluate_operators (env : Environment) (table : TableId) (p : Progress) :
    ((∀ text, Contained (env.parser text)) → ∀ part e : Expr, part.OperandOf e →
      (part.isRange = true ∨ ∃ v, evaluate env table p part = .ok v ∧
        v.isBlank = false ∧ ∀ n, v.number? ≠ .ok (some n)) →
      evaluate env table p e = .ok Sentinel.error.value) ∧
    ∀ (op : Operator) (left right : Expr),
      evaluate env table p (.binary op left right) ≠ .ok Sentinel.reference.value ∧
      evaluate env table p (.binary op left right) ≠ .ok Sentinel.circular.value ∧
      (evaluate env table p (.binary op left right) = .ok Sentinel.divisionByZero.value ↔
        op = .div ∧ left.isRange = false ∧ right.isRange = false ∧
        ∃ v w a b, evaluate env table p left = .ok v ∧ evaluate env table p right = .ok w ∧
          operand? v = .ok (some a) ∧ operand? w = .ok (some b) ∧ b.isZero = true) := by
  refine ⟨fun hparser part e h hpart => ?_, fun op left right => ⟨?_, ?_, ?_⟩⟩
  · refine Expr.value_of_operandOf env.today table (Environment.source_answers hparser p) h ?_
    exact hpart.imp_right fun ⟨v, hv, hno⟩ => ⟨v, hv, Value.isNoOperand_iff.2 hno⟩
  · exact Expr.value_binary_ne_sentinel env.today table (by decide) (by decide)
  · exact Expr.value_binary_ne_sentinel env.today table (by decide) (by decide)
  · exact Expr.value_binary_eq_divisionByZero env.today table

/-! ## A dangling reference below a division by zero -/

/-- A formula that names no cell, beside an empty cell. -/
def dividing : Environment where
  workbook := [[[{ value := .text "=C9" }, {}]]]
  parser := parseFormula
  today := .first

/-- The formula, compared below a division by the empty cell. -/
abbrev spoiledQuotient : Expr :=
  .binary .div
    (.binary .eq (.literal (.int 5)) (.binary .mul (.literal (.int 2)) (.cell "A1" none)))
    (.cell "B1" none)

/-- The quotient is `#ERROR!` and not `#DIV/0!`, as that of the empty cell by itself is. -/
theorem spoiledQuotient_error :
    (Expr.cell "A1" none).OperandOf spoiledQuotient ∧
    evaluate dividing (.index 0) ["0:=B1"] (.cell "A1" none) = .ok Sentinel.reference.value ∧
    evaluate dividing (.index 0) ["0:=B1"] spoiledQuotient = .ok Sentinel.error.value ∧
    evaluate dividing (.index 0) ["0:=B1"] (.binary .div (.cell "B1" none) (.cell "B1" none)) =
      .ok Sentinel.divisionByZero.value := by
  have hpart : (Expr.cell "A1" none).OperandOf spoiledQuotient := .inLeft (.inRight .right)
  have hvalue : evaluate dividing (.index 0) ["0:=B1"] (.cell "A1" none) =
      .ok Sentinel.reference.value := by cbv
  have hempty : evaluate dividing (.index 0) ["0:=B1"] (.cell "B1" none) = .ok .null := by cbv
  obtain ⟨spoils, operators⟩ := evaluate_operators dividing (.index 0) ["0:=B1"]
  refine ⟨hpart, hvalue, ?_, ?_⟩
  · have hno := Value.isNoOperand_iff.1 Sentinel.reference.isNoOperand
    exact spoils parseFormula_contained _ _ hpart (.inr ⟨_, hvalue, hno⟩)
  · refine (operators .div (.cell "B1" none) (.cell "B1" none)).2.2.2 ?_
    exact ⟨rfl, rfl, rfl, .null, .null, .int 0, .int 0, hempty, hempty, rfl, rfl, by cbv⟩

end Spreadsheet
