import Spreadsheet.Format.Render

/-!
# Values that cannot be displayed

A display has few ways to fail. A value that is shown as it is may have a whole number with more
digits than text may have. A value that a format shows as a number or as a date may be a text with
too many digits, or a moment whose offset leaves it without a serial number; the section that is
used may have a color tag that names no color; and a whole number that is shown with digit places or
as a date may be beyond the doubles. There is no other way: see `display_faulty_iff`.
-/

namespace Spreadsheet

open Numeral

namespace Value

/-- Somewhere in a value stands a whole number with more digits than text may have. -/
inductive Overlong : Value → Prop
  | int {n : Int} : maxDigits < (digitsOf n.natAbs).length → Overlong (.int n)
  | item {items : List Value} {v : Value} : v ∈ items → Overlong v → Overlong (.list items)
  | name {fields : List (Value × Value)} {f : Value × Value} : f ∈ fields → Overlong f.1 →
    Overlong (.record fields)
  | field {fields : List (Value × Value)} {f : Value × Value} : f ∈ fields → Overlong f.2 →
    Overlong (.record fields)

inductive IsCollection : Value → Prop
  | list (items : List Value) : IsCollection (.list items)
  | record (fields : List (Value × Value)) : IsCollection (.record fields)

inductive IsDated : Value → Prop
  | date (d : Calendar.Date) : IsDated (.date d)
  | moment (t : Calendar.Moment) : IsDated (.moment t)

/-- A text writes a whole number with more digits than text may have. -/
def LongNumeral (s : String) : Prop :=
  ∃ d, DecimalText.read? (Text.stripChars s.toList) = some d ∧ d.isWhole = true ∧
    maxDigits < d.digits.length

/-- The number that a value is or that its text writes. -/
inductive CountsAs : Value → Number → Prop
  | int (n : Int) : CountsAs (.int n) (.int n)
  | float (x : Float) : CountsAs (.float x) (.float x)
  | text {s : String} {x : Number} : numberOfText s = .ok (some x) → CountsAs (.text s) x

/-- The serial number of a date or of a moment without an offset. -/
inductive SerialIs : Value → Number → Prop
  | date (d : Calendar.Date) : SerialIs (.date d) (.int d.serial)
  | moment {t : Calendar.Moment} {x : Float} : t.offset = none → t.serial? = some x →
    SerialIs (.moment t) (.float x)

end Value

/-- Two numbers are the same but perhaps for the sign of the second. -/
inductive Number.UpToSign (x : Number) : Number → Prop
  | same : UpToSign x x
  | neg : UpToSign x x.neg
  | abs : UpToSign x x.abs

namespace Format

/-- What is left of a section without its tags. -/
def pattern (raw : List Char) : List Char :=
  let cs := replaceTags (fun content => (colorOf? content).map fun _ => []) raw
  let cs := replaceTags (fun content => (currencyText? content).map fun t => '"' :: t ++ ['"']) cs
  replaceTags (fun _ => some []) cs

/-- The first color tag of a section only resembles a color. -/
def HasFalseColor (raw : List Char) : Prop :=
  ∃ content rest, colorTags raw = content :: rest ∧ isFalseColor content = true

/-- A section shows a whole number that is beyond the doubles: as a date, or with digit places,
where a percent sign makes it a hundred times as large. -/
inductive BeyondDoubles (n : Int) (raw : List Char) : Prop
  | date : isDateSection (pattern raw) = true → doubleLimit ≤ n.natAbs → BeyondDoubles n raw
  | places {places : List Char} : isDateSection (pattern raw) = false →
    findPattern? (outsideQuotes (pattern raw)) = some places →
    doubleLimit ≤ n.natAbs * (if (outsideQuotes (pattern raw)).contains '%' then 100 else 1) →
    BeyondDoubles n raw

/-- The section for a number: the second one if it is negative, the third one if it is zero, where
there are so many; else the first one. -/
def sectionFor (number : Number) (sections : List (List Char)) : List Char :=
  match number.isNegative, number.isZero, sections with
  | true, _, _ :: second :: _ => second
  | _, true, _ :: _ :: third :: _ => third
  | _, _, first :: _ => first
  | _, _, [] => []

/-- A value is shown by a section, with the number that is shown, where one is. -/
inductive ShownBy (sections : List (List Char)) : Value → List Char → Option Number → Prop
  | number {v : Value} {x : Number} : v.CountsAs x →
    ShownBy sections v (sectionFor x sections) (some x)
  | text {s : String} {raw : List Char} : Value.numberOfText s = .ok none →
    sections[3]? = some raw → ShownBy sections (.text s) raw none
  | date {v : Value} : v.IsDated → ShownBy sections v (sections.headD []) none
  | serial {v : Value} {x : Number} : isDateSection (pattern (sections.headD [])) = false →
    v.SerialIs x → ShownBy sections v (sectionFor x sections) (some x)

/-- A value cannot be displayed under a format. -/
inductive Unshowable : Value → Option String → Prop
  /-- Without a format the value is shown as it is. -/
  | bare {v : Value} : v.Overlong → Unshowable v none
  | plain {v : Value} {format : String} : isPlain format = true → v.Overlong →
    Unshowable v (some format)
  /-- Lists and records are shown as they are under any format. -/
  | collection {v : Value} {format : String} : v.IsCollection → v.Overlong →
    Unshowable v (some format)
  | numeral {s : String} {format : String} : isPlain format = false → Value.LongNumeral s →
    Unshowable (.text s) (some format)
  | offset {t : Calendar.Moment} {format : String} : isPlain format = false →
    isDateSection (pattern ((splitSections format.toList).headD [])) = false →
    t.offset.isSome = true → Unshowable (.moment t) (some format)
  | color {v : Value} {format : String} {raw : List Char} {number : Option Number} :
    isPlain format = false → ShownBy (splitSections format.toList) v raw number →
    HasFalseColor raw → Unshowable v (some format)
  | range {v : Value} {format : String} {raw : List Char} {n : Int} :
    isPlain format = false → ShownBy (splitSections format.toList) v raw (some (.int n)) →
    BeyondDoubles n raw → Unshowable v (some format)

end Format

end Spreadsheet
