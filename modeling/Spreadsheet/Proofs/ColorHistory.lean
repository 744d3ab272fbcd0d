import Spreadsheet.Proofs.OrderShown
import Spreadsheet.Proofs.Pass
import Spreadsheet.Workbook.Color

/-!
# Which color a cell ends with

A resolution leaves the color that its formatter returns, or else the one from before
(`textColor_resolveCell`). Over any changes a cell so ends with the last color that any formatter
has returned, or else with the one that it had at first (`textColor_after`): not with what the last
resolution says, unless that returns a color or no other one has come before.
-/

namespace Spreadsheet

open Resolver

variable (r : Resolver) (w : Workbook) (n : Nat) (c : Cell)

/-! ## One resolution -/

theorem Resolver.resolveCell_textColor_of_error {f : Fault} (h : r.stored w n c = .error f) :
    (r.resolveCell w n c).1.textColor = c.textColor := by
  unfold stored at h
  unfold resolveCell
  cases ht : c.value.formula? with
  | none =>
    rw [ht] at h
    cases h
  | some text =>
    rw [ht] at h
    unfold environment at h
    dsimp only at h ⊢
    cases hval : evaluateFormula ⟨w, parseFormula, r.today⟩ c.value (.index n) [] with
    | error g => rfl
    | ok value =>
      rw [hval] at h
      have hnumber : value.numberForText = .error f := h
      dsimp only
      rw [hnumber]

/-- A resolution leaves the color that the formatter returns; if it returns none, the color stays.
-/
theorem textColor_resolveCell :
    (r.resolveCell w n c).1.textColor = (r.colorFor w n c).or c.textColor := by
  unfold colorFor
  cases hv : r.stored w n c with
  | error f => exact r.resolveCell_textColor_of_error w n c hv
  | ok v =>
    rw [r.resolveCell_of_stored hv]
    dsimp only
    cases r.presented (store c v) with
    | error f => rfl
    | ok s => rfl

theorem Cell.Change.textColor_apply (change : Change) :
    (change.apply c).textColor = (change.color? c).or c.textColor := by
  cases change with
  | value v => rfl
  | format f => rfl
  | resolution r w n => exact textColor_resolveCell r w n c

/-! ## Any changes -/

/-- A cell has the last color that was returned, or the first one if there was none. -/
theorem Cell.textColor_after (changes : List Change) :
    (c.after changes).textColor = (c.colorsOver changes).getLast?.or c.textColor := by
  induction changes generalizing c with
  | nil => rfl
  | cons change rest ih =>
    -- The color of the first change counts only where the others return none.
    have hlast : (c.colorsOver (change :: rest)).getLast? =
        ((change.apply c).colorsOver rest).getLast?.or (change.color? c) := by
      rw [colorsOver, List.getLast?_append]
      cases change.color? c <;> rfl
    calc ((change.apply c).after rest).textColor
      _ = ((change.apply c).colorsOver rest).getLast?.or (change.apply c).textColor := ih _
      _ = ((change.apply c).colorsOver rest).getLast?.or
            ((change.color? c).or c.textColor) := by rw [change.textColor_apply c]
      _ = (c.colorsOver (change :: rest)).getLast?.or c.textColor := by
        rw [hlast, Option.or_assoc]

/-- **The color after any history.** A resolution at the end of any changes leaves the color that
its formatter returns, else the last one that was returned before, else the first one. So the color
is that of the last resolution exactly when this one returns a color or when there was none at first
and none was returned on the way. -/
theorem textColor_of_history (changes : List Cell.Change) :
    (r.resolveCell w n (c.after changes)).1.textColor =
      (r.colorFor w n (c.after changes)).or ((c.colorsOver changes).getLast?.or c.textColor) ∧
    ((r.resolveCell w n (c.after changes)).1.textColor = r.colorFor w n (c.after changes) ↔
      (r.colorFor w n (c.after changes)).isSome = true ∨
        c.textColor = none ∧ c.colorsOver changes = []) := by
  have hcolor := textColor_resolveCell r w n (c.after changes)
  rw [c.textColor_after changes] at hcolor
  refine ⟨hcolor, ?_⟩
  rw [hcolor]
  cases r.colorFor w n (c.after changes) with
  | some color => simp
  | none =>
    rw [Option.none_or, Option.or_eq_none_iff, List.getLast?_eq_none_iff, and_comm]
    simp

/-- A cell that was resolved with a negative number under a format that makes those red, and was
then given a positive one. -/
def onceNegative (r : Resolver) : Cell :=
  ({ value := .int (-5), format := some "0;[Red]-0" } : Cell).after
    [.resolution r [] 0, .value (.int 5)]

/-- A resolution does not always leave the color that its formatter returns: the positive number
stays red. -/
theorem onceNegative_stays_red :
    ¬ ∀ (r : Resolver) (w : Workbook) (n : Nat) (c : Cell), (r.resolveCell w n c).2 = none →
      (r.resolveCell w n c).1.textColor = r.colorFor w n c := by
  intro h
  have hreturns : (firstDay.resolveCell [] 0 (onceNegative firstDay)).2 = none := by decide +kernel
  have hred : (firstDay.resolveCell [] 0 (onceNegative firstDay)).1.textColor = some "red" := by
    decide +kernel
  have hnone : firstDay.colorFor [] 0 (onceNegative firstDay) = none := by decide +kernel
  have hsame := h firstDay [] 0 (onceNegative firstDay) hreturns
  rw [hred, hnone] at hsame
  cases hsame

end Spreadsheet
