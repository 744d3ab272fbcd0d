import Spreadsheet.Value.Number

/-!
# Equality of values and fields of records

Numbers and booleans are equal when they count as the same number, so `1`, `1.0` and `true` are the
same name of a field. A record holds each name once: giving a name a second value replaces the
first value and keeps its place.
-/

namespace Spreadsheet.Value

open Calendar

/-- The number behind a boolean, a whole number or a double. -/
def plainNumber? : Value → Option Number
  | .bool b => some (.int (if b then 1 else 0))
  | .int n => some (.int n)
  | .float x => some (.float x)
  | _ => none

/-- Microseconds from 0001-01-01 to a moment, its offset taken off. -/
def universalMicros (t : Moment) : Int :=
  t.date.day * microsPerDay + t.micros - t.offset.getD 0 * microsPerSecond

/-- Two moments are the same instant, or the same reading of clocks without offset. -/
def sameMoment (a b : Moment) : Bool :=
  a.offset.isSome == b.offset.isSome && universalMicros a == universalMicros b

mutual

/-- Equality of values. -/
def same (a b : Value) : Bool :=
  match a, b with
  | .null, .null => true
  | .text s, .text t => s == t
  | .date d, .date e => decide (d = e)
  | .moment t, .moment u => sameMoment t u
  | .list xs, .list ys => sameItems xs ys
  | .record fs, .record gs => fs.length == gs.length && fieldsWithin fs gs
  | a, b =>
    match a.plainNumber?, b.plainNumber? with
    | some m, some n => m.eq n
    | _, _ => false

def sameItems : List Value → List Value → Bool
  | [], [] => true
  | x :: xs, y :: ys => x.same y && sameItems xs ys
  | _, _ => false

/-- Every field is one of the others. -/
def fieldsWithin : List (Value × Value) → List (Value × Value) → Bool
  | [], _ => true
  | (k, v) :: rest, gs => gs.any (fun g => k.same g.1 && v.same g.2) && fieldsWithin rest gs

end

/-- Gives a name a value in a record. -/
def setField (fields : List (Value × Value)) (name v : Value) : List (Value × Value) :=
  if fields.any fun f => f.1.same name then
    fields.map fun f => if f.1.same name then (f.1, v) else f
  else fields ++ [(name, v)]

/-- The record that results from giving names their values one after the other. -/
def ofFields (fields : List (Value × Value)) : List (Value × Value) :=
  fields.foldl (fun fs f => setField fs f.1 f.2) []

/-- The value of a field named by a text. -/
def field? (fields : List (Value × Value)) (name : String) : Option Value :=
  (fields.find? fun f => match f.1 with
    | .text s => s == name
    | _ => false).map Prod.snd

theorem field?_append (fields more : List (Value × Value)) (name : String) :
    field? (fields ++ more) name = (field? fields name).or (field? more name) := by
  unfold field?
  rw [List.find?_append, Option.map_or]

theorem isSome_field?_of_mem {fields : List (Value × Value)} {name : String} {v : Value}
    (h : (.text name, v) ∈ fields) : (field? fields name).isSome := by
  unfold field?
  rw [Option.isSome_map, List.find?_isSome]
  exact ⟨_, h, beq_self_eq_true name⟩

end Spreadsheet.Value
