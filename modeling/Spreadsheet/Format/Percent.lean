import Spreadsheet.Format.Refusal

/-!
# Percent signs in sections

A percent sign outside of quotes makes a section show a number a hundred times as large; the sign
itself is a literal like any other. A format so multiplies a number when the section for the number
has a percent sign of that kind and asks for no date: a sign in quotes, in a tag or in another
section does not count.
-/

namespace Spreadsheet

namespace Format

/-- The number that stands in the digit places of a section in place of a number. -/
def timesPercent (x : Number) (section_ : List Char) : Except Fault Number :=
  if (outsideQuotes section_).contains '%' then x.mul (.int 100) else .ok x

/-- A number in the digit places of a section, with the literals around them. -/
def renderPlaces (x : Number) (section_ : List Char) : Except Fault (List Char) :=
  match findPattern? (outsideQuotes section_) with
  | none => .ok (literal section_)
  | some places => do
    let body ← fillPattern x places
    match cutAround? places section_ with
    | none => return body
    | some (before, behind) => return literal before ++ body ++ literal behind

theorem renderNumber_eq (x : Number) (s : List Char) :
    renderNumber x s = timesPercent x s >>= fun y => renderPlaces y s := by
  unfold renderNumber timesPercent renderPlaces
  dsimp only
  split <;> rfl

/-- What is displayed for a number in the digit places of a section. -/
def showPlaces (minus : Bool) (color : Option String) (section_ : List Char) (x : Number) :
    Except Fault Shown := do
  let body ← renderPlaces x section_
  return ⟨String.ofList (if minus then '-' :: body else body), color⟩

/-- A section shows a number a hundred times as large. -/
structure ShowsPercent (raw : List Char) : Prop where
  /-- The color tag, if there is one, names a color; else nothing is shown. -/
  color : ¬ HasFalseColor raw
  number : isDateSection (pattern raw) = false
  sign : '%' ∈ outsideQuotes (pattern raw)

/-- A format shows a number a hundred times as large. -/
def Multiplies (format : String) (x : Number) : Prop :=
  isPlain format = false ∧ ShowsPercent (sectionFor x (splitSections format.toList))

end Format

end Spreadsheet
