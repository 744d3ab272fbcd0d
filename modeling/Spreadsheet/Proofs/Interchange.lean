import Mathlib.Data.List.Forall2
import Mathlib.Data.List.TakeWhile
import Spreadsheet.Formula.Function

/-!
# Values that count for the same

Operators and functions look at a value only as a number, as a truth value, as a blank or as a list.
Two values that agree in all of this are interchangeable: they may replace one another in every
operand and argument. The text `5` and the whole number 5 are so, the text `0` and the whole number
0 are not, because the text counts as true. Main statements: the aggregates have equal values on
interchangeable arguments (`Aggregate.apply_interchange`), the scalar functions interchangeable ones
(`Scalar.apply_interchange`).
-/

namespace Spreadsheet

open Calendar Workbook

/-- The values are equal, or both count as the same number and the same truth value without being
booleans. -/
inductive Value.Interchangeable : Value → Value → Prop
  | refl (v : Value) : Interchangeable v v
  | number {v w : Value} {n : Number} (hv : v.number? = .ok (some n))
      (hw : w.number? = .ok (some n)) (ht : v.isTrue = w.isTrue) (hbv : ∀ b, v ≠ .bool b)
      (hbw : ∀ b, w ≠ .bool b) : Interchangeable v w

/-- Two outcomes are the same fault or related results. -/
inductive OutcomeRel {α β : Type} (R : α → β → Prop) : Except Fault α → Except Fault β → Prop
  | ok {a : α} {b : β} (h : R a b) : OutcomeRel R (.ok a) (.ok b)
  | error (f : Fault) : OutcomeRel R (.error f) (.error f)

theorem OutcomeRel.self {α : Type} (x : Except Fault α) :
    OutcomeRel (fun a b => x = .ok a ∧ a = b) x x := by
  cases x with
  | error f => exact .error f
  | ok a => exact .ok ⟨rfl, rfl⟩

theorem OutcomeRel.eq {α : Type} {x y : Except Fault α} (h : OutcomeRel (fun a b => a = b) x y) :
    x = y := by
  cases h with
  | error f => rfl
  | ok h => rw [h]

/-- A relation between values that no operator or function can break. -/
structure Value.Respected (V : Value → Value → Prop) : Prop where
  refl : ∀ v, V v v
  interchange : ∀ v w, V v w → v.Interchangeable w

namespace Value

theorem respected_eq : Respected (fun v w => v = w) :=
  ⟨fun _ => rfl, fun v _ h => h ▸ .refl v⟩

theorem number?_of_isBlank {v : Value} (h : v.isBlank = true) : v.number? = .ok none := by
  cases v with
  | null => rfl
  | text s =>
    have hs : s.toList.dropWhile Text.isBlank = [] :=
      List.dropWhile_eq_nil_iff.2 fun c hc => List.all_eq_true.1 h c hc
    simp only [number?, numberOfText, Text.stripChars, Text.trimBy, hs]
    rfl
  | _ => cases h

namespace Interchangeable

variable {v w : Value}

theorem number?_eq (h : v.Interchangeable w) : v.number? = w.number? := by
  cases h with
  | refl => rfl
  | number hv hw => rw [hv, hw]

theorem isTrue_eq (h : v.Interchangeable w) : v.isTrue = w.isTrue := by
  cases h with
  | refl => rfl
  | number _ _ ht => exact ht

theorem isBlank_eq (h : v.Interchangeable w) : v.isBlank = w.isBlank := by
  cases h with
  | refl => rfl
  | number hv hw =>
    have notBlank : ∀ (u : Value) (n : Number), u.number? = .ok (some n) → u.isBlank = false := by
      intro u n hu
      rw [Bool.eq_false_iff]
      intro hb
      rw [number?_of_isBlank hb] at hu
      cases hu
    rw [notBlank v _ hv, notBlank w _ hw]

/-- Values that count as no number are interchangeable only when they are equal. -/
theorem eq_of_number? (h : v.Interchangeable w) (hn : v.number? = .ok none) : v = w := by
  cases h with
  | refl => rfl
  | number hv =>
    rw [hv] at hn
    cases hn

theorem operand?_eq (h : v.Interchangeable w) : operand? v = operand? w := by
  unfold operand?
  rw [h.isBlank_eq, h.number?_eq]

end Interchangeable

end Value

open Value

theorem numbersOf_interchange {vs ws : List Value}
    (h : List.Forall₂ Interchangeable vs ws) : numbersOf vs = numbersOf ws := by
  induction h with
  | nil => rfl
  | cons hv _ ih =>
    unfold numbersOf
    rw [hv.number?_eq, ih]

theorem countNumbers_cons (v : Value) (rest : List Value) (hb : ∀ b, v ≠ .bool b) :
    countNumbers (v :: rest) = do
      let n ← v.number?
      let k ← countNumbers rest
      return if n.isSome then k + 1 else k := by
  cases v with
  | bool b => exact absurd rfl (hb b)
  | _ => rfl

theorem countNumbers_interchange {vs ws : List Value}
    (h : List.Forall₂ Interchangeable vs ws) : countNumbers vs = countNumbers ws := by
  induction h with
  | nil => rfl
  | @cons v _ _ _ hv _ ih =>
    cases hv with
    | refl =>
      cases v with
      | bool b => exact ih
      | _ => simp only [countNumbers, ih]
    | number hn hm _ hbv hbw =>
      rw [countNumbers_cons _ _ hbv, countNumbers_cons _ _ hbw, hn, hm, ih]

/-- An aggregate has one value on interchangeable arguments. -/
theorem Aggregate.apply_interchange (f : Aggregate) {vs ws : List Value}
    (h : List.Forall₂ Interchangeable vs ws) : f.apply vs = f.apply ws := by
  unfold Aggregate.apply
  rw [numbersOf_interchange h, countNumbers_interchange h]

theorem wholeArgument_interchange (name label : String) {v w : Value}
    (h : v.Interchangeable w) : wholeArgument name label v = wholeArgument name label w := by
  cases hn : v.number? with
  | error f =>
    unfold wholeArgument
    rw [← h.number?_eq, hn]
    rfl
  | ok n =>
    cases n with
    | none => rw [h.eq_of_number? hn]
    | some n =>
      unfold wholeArgument
      rw [← h.number?_eq, hn]
      rfl

theorem dateOf_interchange {vs ws : List Value}
    (h : List.Forall₂ Interchangeable vs ws) : dateOf vs = dateOf ws := by
  match h with
  | .nil => rfl
  | .cons _ .nil => rfl
  | .cons _ (.cons _ .nil) => rfl
  | .cons hy (.cons hm (.cons hd .nil)) =>
    simp only [dateOf]
    rw [wholeArgument_interchange _ _ hy, wholeArgument_interchange _ _ hm,
      wholeArgument_interchange _ _ hd]
  | .cons _ (.cons _ (.cons _ (.cons _ _))) => rfl

variable {V : Value → Value → Prop}

theorem choose_interchange (hV : Respected V) {vs ws : List Value} (h : List.Forall₂ V vs ws) :
    OutcomeRel V (choose vs) (choose ws) := by
  match h with
  | .nil => exact .error _
  | .cons _ .nil => exact .error _
  | .cons hc (.cons hy .nil) =>
    simp only [choose]
    rw [(hV.interchange _ _ hc).isTrue_eq]
    split
    · exact .ok hy
    · exact .ok (hV.refl _)
  | .cons hc (.cons hy (.cons hn .nil)) =>
    simp only [choose]
    rw [(hV.interchange _ _ hc).isTrue_eq]
    split
    · exact .ok hy
    · exact .ok hn
  | .cons _ (.cons _ (.cons _ (.cons _ _))) => exact .error _

theorem OutcomeRel.of_eq_value (hV : Respected V) {x y : Except Fault Value} (h : x = y) :
    OutcomeRel V x y := by
  subst h
  cases x with
  | error f => exact .error f
  | ok v => exact .ok (hV.refl v)

/-- A scalar function has related values on related arguments. -/
theorem Scalar.apply_interchange (f : Scalar) (today : Date) (hV : Respected V)
    {vs ws : List Value} (h : List.Forall₂ V vs ws) :
    OutcomeRel V (f.apply today vs) (f.apply today ws) := by
  have hi : List.Forall₂ Interchangeable vs ws := h.imp hV.interchange
  cases f with
  | cond => exact choose_interchange hV h
  | date => exact .of_eq_value hV (dateOf_interchange hi)
  | today =>
    have he : vs.isEmpty = ws.isEmpty := by cases h <;> rfl
    unfold Scalar.apply
    rw [he]
    exact .of_eq_value hV rfl

end Spreadsheet
