import Mathlib.Algebra.Field.Rat
import Mathlib.Algebra.Order.Group.Abs
import Mathlib.Algebra.Order.Ring.Rat
import Mathlib.Order.WithBotTop
import Spreadsheet.Value.Number

/-!
# Numbers as points of a line

A number stands at a point of the line of rational numbers, which has an end on either side for the
infinities; a double that is not a number stands nowhere. Numbers of different kinds are the same
number where they stand at the same point. The rational numbers at which doubles stand are few: a
whole number beyond `2 ^ 53` need not be among them.
-/

namespace Spreadsheet

/-- The rational number `m · 2 ^ e`. -/
def Numeral.dyadic (m e : Int) : ℚ := m * 2 ^ e

namespace Number

open Numeral

/-- The point of the line at which an exact number stands. -/
def Exact.point : Exact → WithBotTop ℚ
  | .negInfinity => ⊥
  | .finite m e => dyadic m e
  | .posInfinity => ⊤

/-- The point of the line at which a number stands. -/
def point? (x : Number) : Option (WithBotTop ℚ) := x.exactValue?.map Exact.point

end Number

/-- A double stands at a rational number. -/
def Numeral.IsDouble (q : ℚ) : Prop := ∃ x : Float, (Number.float x).point? = some (q : WithBotTop ℚ)

/-- A double stands at `q`, and none stands nearer to `p`. -/
structure Numeral.IsNearestDouble (p q : ℚ) : Prop where
  isDouble : IsDouble q
  nearest : ∀ r, IsDouble r → |p - q| ≤ |p - r|

/-- The values are the same, or they are numbers that stand at the same point. -/
inductive Value.SameNumber : Value → Value → Prop
  | refl (v : Value) : SameNumber v v
  | point {x y : Number} {p : WithBotTop ℚ} : x.point? = some p → y.point? = some p →
    SameNumber x.toValue y.toValue

end Spreadsheet
