import Mathlib
import Spreadsheet.Value.Point

/-!
# Numbers on the line

Comparing two numbers compares the points at which they stand (`Number.lt_iff`). A finite double
stands at the number that its bits decode to, an infinite one at an end of the line
(`point?_float`).
-/

namespace Spreadsheet

open Numeral

namespace Numeral

/-- A dyadic number as a multiple of a lower power of two. -/
theorem dyadic_eq_scaled (m : Int) {low e : Int} (h : low ≤ e) :
    dyadic m e = dyadic (m * 2 ^ (e - low).toNat) low := by
  have hsplit : e = (e - low).toNat + low := by omega
  unfold dyadic
  conv_lhs => rw [hsplit, zpow_add₀ two_ne_zero, zpow_natCast, ← mul_assoc]
  push_cast
  rfl

/-- Half as many of twice the power. -/
theorem dyadic_double (m e : Int) : dyadic (2 * m) e = dyadic m (e + 1) := by
  unfold dyadic
  rw [zpow_add_one₀ two_ne_zero]
  push_cast
  ring

theorem dyadic_neg (m e : Int) : dyadic (-m) e = -dyadic m e := by
  unfold dyadic
  push_cast
  ring

theorem dyadic_nonneg (m : Nat) (e : Int) : 0 ≤ dyadic m e := by
  unfold dyadic
  positivity

theorem dyadic_lt_dyadic_iff {m m' e : Int} : dyadic m e < dyadic m' e ↔ m < m' := by
  have hpow : (0 : ℚ) < 2 ^ e := by positivity
  unfold dyadic
  rw [mul_lt_mul_iff_left₀ hpow, Int.cast_lt]

theorem dyadic_le_dyadic_iff {m m' e : Int} : dyadic m e ≤ dyadic m' e ↔ m ≤ m' := by
  rw [← not_lt, dyadic_lt_dyadic_iff, not_lt]

end Numeral

namespace Number

theorem compareFinite_lt_iff (m e m' e' : Int) :
    compareFinite m e m' e' = .lt ↔ dyadic m e < dyadic m' e' := by
  have hpow (k : Nat) : Int.pow 2 k = 2 ^ k := rfl
  unfold compareFinite
  rw [compare_lt_iff_lt, dyadic_eq_scaled m (min_le_left e e'),
    dyadic_eq_scaled m' (min_le_right e e'), dyadic_lt_dyadic_iff, hpow, hpow]

theorem Exact.compare_lt_iff (x y : Exact) : x.compare y = .lt ↔ x.point < y.point := by
  have hbot (q : ℚ) : (⊥ : WithBotTop ℚ) < q := WithBot.bot_lt_coe _
  have htop (q : ℚ) : (q : WithBotTop ℚ) < ⊤ := WithBot.coe_lt_coe.2 (WithTop.coe_lt_top q)
  cases x <;> cases y <;> simp [Exact.compare, Exact.point, compareFinite_lt_iff, hbot, htop]

variable {x y : Number} {p q : WithBotTop ℚ}

/-- A number is less than another one where it stands below it. -/
theorem lt_iff (hx : x.point? = some p) (hy : y.point? = some q) : x.lt y = true ↔ p < q := by
  obtain ⟨a, ha, rfl⟩ := Option.map_eq_some_iff.1 hx
  obtain ⟨b, hb, rfl⟩ := Option.map_eq_some_iff.1 hy
  have hcompare : x.compare? y = some (a.compare b) := by
    unfold compare?
    rw [ha, hb]
    rfl
  unfold lt
  rw [hcompare, beq_iff_eq, Option.some.injEq, Exact.compare_lt_iff]

theorem point?_float (x : Float) : (float x).point? = match decode x with
    | .nan => none
    | .infinite negative => some (if negative then ⊥ else ⊤)
    | .finite negative m e => some ((if negative then -dyadic m e else dyadic m e : ℚ) :
        WithBotTop ℚ) := by
  unfold point? exactValue?
  dsimp only
  cases decode x with
  | nan => rfl
  | infinite negative => cases negative <;> rfl
  | finite negative m e =>
    cases negative with
    | false => rfl
    | true => exact congrArg (fun q : ℚ => some (q : WithBotTop ℚ)) (dyadic_neg m e)

theorem exists_point?_float {x : Float} (h : isNaN x = false) : ∃ p, (float x).point? = some p := by
  unfold isNaN at h
  rw [point?_float]
  cases hx : decode x with
  | nan =>
    rw [hx] at h
    cases h
  | infinite negative => exact ⟨_, rfl⟩
  | finite negative m e => exact ⟨_, rfl⟩

end Number

end Spreadsheet
