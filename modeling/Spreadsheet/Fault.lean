import Spreadsheet.Text.Quoted

/-!
# Faults

A fault is the cause for which a computation stops without a value. Evaluating a formula contains
most faults: the step that meets one has the value `#ERROR!` instead. The few that are not
contained can only come from a parser that the caller supplies.
-/

namespace Spreadsheet

/-- The ways in which a parser supplied by the caller may fail. -/
inductive ParserFault
  | formula
  | value
  | type
  | zeroDivision
  | overflow
  | recursion
  | key
  | index
  | attribute
deriving DecidableEq, Repr

/-- Why a computation stopped without a value. -/
inductive Fault
  /-- A formula has to start with `=`. -/
  | noFormula
  /-- The text is no formula from the given column on, where one is known. -/
  | syntaxError (column : Option Nat)
  | unknownFunction (name : String)
  /-- The function takes another number of arguments. -/
  | argumentCount (name : String)
  /-- An argument that has to be a number is none; `shown` is that argument quoted. -/
  | notNumeric (name label shown : String)
  | invalidDate
  | unknownOperator (symbol : String)
  /-- The number is too large for a double. -/
  | tooLarge
  | zeroToNegativePower
  /-- A whole number with more digits than text may have. -/
  | digitLimit
  /-- A moment with an offset and one without cannot be compared. -/
  | mixedClocks
  /-- A color tag whose letters only resemble those of a color. -/
  | unknownColor
  | supplied (fault : ParserFault)
deriving DecidableEq, Repr

/-- Whether evaluation turns the fault into the value `#ERROR!`. -/
def Fault.isContained : Fault → Bool
  | .supplied .key | .supplied .index | .supplied .attribute | .unknownColor => false
  | _ => true

/-- Text of the faults that have one of their own. -/
def Fault.message : Fault → String
  | .noFormula => "Formula parse error: Formula must start with '=' (at position 0)"
  | .unknownFunction name => "Unknown function: " ++ Text.quoted name
  | .argumentCount name =>
    if name = "IF" then "IF requires 2-3 arguments"
    else if name = "DATE" then "DATE requires exactly 3 arguments (year, month, day)"
    else name ++ " takes no arguments"
  | .notNumeric name label shown => name ++ ": " ++ label ++ " must be numeric, got " ++ shown
  | .invalidDate => "Invalid date"
  | _ => ""

/-- A computation in two steps that returns has returned from the first one. -/
theorem exists_of_bind {ε α β : Type} {x : Except ε α} {f : α → Except ε β} {b : β}
    (h : x >>= f = .ok b) : ∃ a, x = .ok a ∧ f a = .ok b := by
  cases x with
  | ok a => exact ⟨a, rfl, h⟩
  | error e => cases h

theorem bind_eq_ok_iff {ε α β : Type} {x : Except ε α} {f : α → Except ε β} {b : β} :
    x >>= f = .ok b ↔ ∃ a, x = .ok a ∧ f a = .ok b := by
  refine ⟨exists_of_bind, ?_⟩
  rintro ⟨a, rfl, h⟩
  exact h

/-- A computation that returns for each item of a list returns for the list. -/
theorem mapM_eq_ok_map {ε α β : Type} {f : α → Except ε β} {g : α → β} {xs : List α}
    (h : ∀ x ∈ xs, f x = .ok (g x)) : xs.mapM f = .ok (xs.map g) := by
  induction xs with
  | nil => rfl
  | cons x rest ih =>
    rw [List.mapM_cons, h x List.mem_cons_self, ih fun y hy => h y (List.mem_cons_of_mem _ hy)]
    rfl

/-- A computation over a list that joins what it takes of the first item to the rest joins what it
makes of two lists. -/
theorem append_eq_ok_of_cons {ε α β : Type} {f : List α → Except ε β} {P : α → β → Prop}
    {join : β → β → β} {unit : β} (hassoc : ∀ a b c, join (join a b) c = join a (join b c))
    (hunit : ∀ b, join unit b = b) (hnil : f [] = .ok unit)
    (hcons : ∀ x rest r, f (x :: rest) = .ok r ↔
      ∃ a b, P x a ∧ f rest = .ok b ∧ r = join a b) {xs ys : List α} {r : β} :
    f (xs ++ ys) = .ok r ↔ ∃ a b, f xs = .ok a ∧ f ys = .ok b ∧ r = join a b := by
  induction xs generalizing r with
  | nil =>
    constructor
    · exact fun h => ⟨unit, r, hnil, h, (hunit r).symm⟩
    · rintro ⟨a, b, ha, hb, rfl⟩
      cases hnil.symm.trans ha
      rw [hunit]
      exact hb
  | cons x rest ih =>
    rw [List.cons_append, hcons]
    constructor
    · rintro ⟨a, b, ha, hb, rfl⟩
      obtain ⟨c, d, hc, hd, rfl⟩ := ih.1 hb
      exact ⟨join a c, d, (hcons ..).2 ⟨a, c, ha, hc, rfl⟩, hd, (hassoc ..).symm⟩
    · rintro ⟨a, b, ha, hb, rfl⟩
      obtain ⟨c, d, hc, hd, rfl⟩ := (hcons ..).1 ha
      exact ⟨c, join d b, hc, ih.2 ⟨d, b, hd, hb, rfl⟩, hassoc ..⟩

end Spreadsheet
