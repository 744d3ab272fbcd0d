import Mathlib.Data.List.Chain
import Spreadsheet.Numeral.Decimal
import Spreadsheet.Text.Surrogate
import Spreadsheet.Value.Basic

/-!
# Plain values

Plain values are built from nothing, booleans, whole numbers that are not too long for text, and
texts by lists and by records in which each name is a text and stands once. Their text in JSON reads
back as the same value, except that the two halves of a pair, next to each other in a text, would come
back as the one character that they make. Values that differ in nothing but the order of the fields of
their records are alike.
-/

namespace Spreadsheet

namespace Text

/-- The character stands for the first half of a pair. -/
def isHighHalf (c : Char) : Bool := (half? c).any fun n => decide (n < 0xdc00)

/-- The character stands for the second half of a pair. -/
def isLowHalf (c : Char) : Bool := (half? c).any fun n => decide (0xdc00 ≤ n)

/-- No two halves that make a pair stand next to each other. -/
def HalvesApart (s : String) : Prop :=
  s.toList.IsChain fun a b => ¬ (isHighHalf a = true ∧ isLowHalf b = true)

instance (s : String) : Decidable (HalvesApart s) := inferInstanceAs (Decidable (List.IsChain _ _))

end Text

namespace Value

open Numeral Text

mutual

/-- A plain value. -/
inductive Plain : Value → Prop
  | null : Plain .null
  | bool (b : Bool) : Plain (.bool b)
  | int {n : Int} : (digitsOf n.natAbs).length ≤ maxDigits → Plain (.int n)
  | text {s : String} : HalvesApart s → Plain (.text s)
  | list {items : List Value} : PlainItems items → Plain (.list items)
  | record {fields : List (Value × Value)} : (fields.map Prod.fst).Nodup → PlainFields fields →
    Plain (.record fields)

inductive PlainItems : List Value → Prop
  | nil : PlainItems []
  | cons {v : Value} {rest : List Value} : Plain v → PlainItems rest → PlainItems (v :: rest)

/-- Fields with texts as names and plain values. -/
inductive PlainFields : List (Value × Value) → Prop
  | nil : PlainFields []
  | cons {name : String} {v : Value} {rest : List (Value × Value)} : HalvesApart name → Plain v →
    PlainFields rest → PlainFields ((.text name, v) :: rest)

end

mutual

/-- The values are the same but for the order of fields. -/
inductive Alike : Value → Value → Prop
  | refl (v : Value) : Alike v v
  | list {xs ys : List Value} : AlikeItems xs ys → Alike (.list xs) (.list ys)
  | record {fs gs hs : List (Value × Value)} : AlikeFields fs gs → gs.Perm hs →
    Alike (.record fs) (.record hs)

inductive AlikeItems : List Value → List Value → Prop
  | nil : AlikeItems [] []
  | cons {x y : Value} {xs ys : List Value} : Alike x y → AlikeItems xs ys →
    AlikeItems (x :: xs) (y :: ys)

/-- Fields of the same names whose values are alike, one by one. -/
inductive AlikeFields : List (Value × Value) → List (Value × Value) → Prop
  | nil : AlikeFields [] []
  | cons {name x y : Value} {fs gs : List (Value × Value)} : Alike x y → AlikeFields fs gs →
    AlikeFields ((name, x) :: fs) ((name, y) :: gs)

end

end Value

end Spreadsheet
