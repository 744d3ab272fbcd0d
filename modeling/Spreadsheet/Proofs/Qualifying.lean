import Spreadsheet.Formula.Machine
import Spreadsheet.Formula.Mention

/-!
# Naming the table at hand

A reference that names no table is read in the table at hand, and only there does that table count.
So a tree in which every such reference names a table `i` has, for whatever table it is evaluated,
the value that the tree as it stood has for `i` (`evaluate_qualified`). Nothing is asked of the
source, so this holds of every evaluator: the same cells are read in the same order, and the
formulas in them go on with the table in which they stand.
-/

namespace Spreadsheet

open Calendar MonadExcept

namespace Expr

section

variable {m : Type → Type} [Monad m] [MonadExceptOf Fault m]
  (s : Source m) (today : Date) (i j : TableId)

mutual

/-- Over every source a qualified expression has the value for the table that it was qualified
with. -/
theorem value_qualified (e : Expr) : (e.qualified i).value s today j = e.value s today i := by
  cases e with
  | literal v => simp only [qualified, value]
  | missing => simp only [qualified, value]
  | cell reference named => simp only [qualified, value, Option.getD_some]
  | range reference named => simp only [qualified, value, Option.getD_some]
  | call name args =>
    simp only [qualified, value]
    rw [values_qualified args, flatValues_qualified args]
  | binary op left right =>
    simp only [qualified, value, isRange_qualified]
    rw [value_qualified left, value_qualified right]

theorem values_qualified (args : List Expr) :
    values s today j (qualifiedAll i args) = values s today i args := by
  cases args with
  | nil => simp only [qualifiedAll, values]
  | cons e rest =>
    simp only [qualifiedAll, values]
    rw [value_qualified e, values_qualified rest]

theorem flatValues_qualified (args : List Expr) :
    flatValues s today j (qualifiedAll i args) = flatValues s today i args := by
  cases args with
  | nil => simp only [qualifiedAll, flatValues]
  | cons e rest =>
    have he := value_qualified e
    -- Which argument stands alone is told by its form, which qualifying keeps.
    cases e with
    | cell reference named =>
      simp only [qualifiedAll, qualified, flatValues, Option.getD_some]
      rw [flatValues_qualified rest]
    | range reference named =>
      simp only [qualifiedAll, qualified, flatValues, Option.getD_some]
      rw [flatValues_qualified rest]
    | _ =>
      simp only [qualified] at he
      simp only [qualifiedAll, qualified, flatValues]
      rw [he, flatValues_qualified rest]

end

end

mutual

/-- A qualified expression mentions the same references for every table. -/
theorem mentions_qualified (i j : TableId) (e : Expr) :
    (e.qualified i).mentions j = e.mentions i := by
  cases e with
  | literal v => simp only [qualified, mentions]
  | missing => simp only [qualified, mentions]
  | cell reference named => simp only [qualified, mentions, Option.getD_some]
  | range reference named => simp only [qualified, mentions, Option.getD_some]
  | call name args =>
    simp only [qualified, mentions]
    exact mentionsIn_qualified i j args
  | binary op left right =>
    simp only [qualified, mentions]
    rw [mentions_qualified i j left, mentions_qualified i j right]

theorem mentionsIn_qualified (i j : TableId) (args : List Expr) :
    mentionsIn j (qualifiedAll i args) = mentionsIn i args := by
  cases args with
  | nil => simp only [qualifiedAll, mentionsIn]
  | cons e rest =>
    simp only [qualifiedAll, mentionsIn]
    rw [mentions_qualified i j e, mentionsIn_qualified i j rest]

end

end Expr

/-- **Qualifying is neutral.** An expression that names the table `i` wherever it named none says
for every table what it said for `i`: it mentions the same references, and it has the same value
over every workbook and with any formulas in progress, whether the workbook has the tables or not.
The machine runs alike as well, so the cells that it reads evaluate the same formulas under the same
keys. -/
theorem evaluate_qualified (env : Environment) (i j : TableId) (p : Progress) (e : Expr) :
    evaluate env j p (e.qualified i) = evaluate env i p e ∧
    (∀ depth, machineExpression env depth j (e.qualified i) = machineExpression env depth i e) ∧
    (e.qualified i).mentions j = e.mentions i :=
  ⟨e.value_qualified (env.source p) env.today i j,
    fun depth => e.value_qualified (env.machineSource depth) env.today i j,
    e.mentions_qualified i j⟩

/-- References that name a table keep it, at any depth. -/
example : Expr.qualified (.index 2)
      (.binary .add (.cell "A1" none)
        (.call "SUM" [.range "A1:B2" none, .cell "C3" (some (.index 1))])) =
    .binary .add (.cell "A1" (some (.index 2)))
      (.call "SUM" [.range "A1:B2" (some (.index 2)), .cell "C3" (some (.index 1))]) := by
  rfl

end Spreadsheet
