import Spreadsheet.Format.Refusal

/-!
# Formats, spelled out

A number format may be digit places between two literals in quotes, a date format date letters with
literals in quotes among them. The definitions here say how such formats are spelled and what they
would show if the literals were copied and nothing else; where that is so is stated with brackets,
because a tag in brackets is taken out even inside quotes. Any format may have a tag in front.

A format with a comma among its digit places groups whole numbers: a comma stands before every third
digit counted from the right, except at the front.
-/

namespace Spreadsheet

namespace Format

/-- An opening bracket with a closing one somewhere behind it. -/
def HasTag (cs : List Char) : Prop := ['[', ']'].Sublist cs

instance (cs : List Char) : Decidable (HasTag cs) := inferInstanceAs (Decidable (List.Sublist _ _))

def tagged (content f : List Char) : List Char := '[' :: (content ++ ']' :: f)

def inQuotes (content : List Char) : List Char := '"' :: content ++ ['"']

/-- Digit places: a place, then places and commas, then perhaps a point and more places. -/
inductive IsPlaces : List Char → Prop
  | whole {c : Char} {cs : List Char} : isPlace c = true →
    (∀ d ∈ cs, isPlace d = true ∨ d = ',') → IsPlaces (c :: cs)
  | point {c : Char} {cs ds : List Char} : isPlace c = true →
    (∀ d ∈ cs, isPlace d = true ∨ d = ',') → (∀ d ∈ ds, isPlace d = true) →
    IsPlaces (c :: cs ++ '.' :: ds)

/-- A number format with a literal before its digit places and one behind them. -/
structure NumberSpelling where
  before : List Char
  places : List Char
  behind : List Char
  before_noQuote : '"' ∉ before
  isPlaces : IsPlaces places
  behind_noQuote : '"' ∉ behind

namespace NumberSpelling

def chars (f : NumberSpelling) : List Char := inQuotes f.before ++ f.places ++ inQuotes f.behind

/-- What shows a text between the two literals, in no color. -/
def around (f : NumberSpelling) (s : Shown) : Shown :=
  ⟨String.ofList f.before ++ s.text ++ String.ofList f.behind, none⟩

end NumberSpelling

/-- A date format: a run of characters outside of quotes, then literals in quotes, each with a run
behind it. Together the runs ask for a date; they hold no marks that would cut the format. -/
structure DateSpelling where
  first : List Char
  more : List (List Char × List Char)
  literal_noQuote : ∀ m ∈ more, '"' ∉ m.1
  bare_noMark : ∀ c ∈ first ++ more.flatMap Prod.snd, c ∉ ['"', '[', ']', ';']
  asksDate : isDateSection (first ++ more.flatMap Prod.snd) = true

namespace DateSpelling

def chars (f : DateSpelling) : List Char :=
  f.first ++ f.more.flatMap fun m => inQuotes m.1 ++ m.2

def literals (f : DateSpelling) : List Char := f.more.flatMap Prod.fst

/-- The date with its letters filled in and the literals as they are. -/
def filled (f : DateSpelling) (date : Calendar.Date) : List Char :=
  fillDate date f.first ++ f.more.flatMap fun m => m.1 ++ fillDate date m.2

end DateSpelling

/-- Up to three digits stand as they are; three digits more stand behind a comma. -/
inductive GroupedDigits : List Char → List Char → Prop
  | short {digits : List Char} : digits ≠ [] → digits.length ≤ 3 → GroupedDigits digits digits
  | group {digits text group : List Char} : GroupedDigits digits text → group.length = 3 →
    GroupedDigits (digits ++ group) (text ++ ',' :: group)

/-- The second text is the first one, that of a whole number, with its digits grouped. -/
inductive Grouped : String → String → Prop
  | unsigned {digits text : List Char} : (∀ c ∈ digits, Text.isAsciiDigit c = true) →
    GroupedDigits digits text → Grouped (String.ofList digits) (String.ofList text)
  | signed {digits text : List Char} : (∀ c ∈ digits, Text.isAsciiDigit c = true) →
    GroupedDigits digits text → Grouped (String.ofList ('-' :: digits)) (String.ofList ('-' :: text))

end Format

/-- The date as which a date section shows a value. -/
inductive Value.DateIs : Value → Calendar.Date → Prop
  | date (d : Calendar.Date) : DateIs (.date d) d
  | moment (t : Calendar.Moment) : DateIs (.moment t) t.date
  /-- Only the size of a serial number counts. -/
  | serial {x : Number} {d : Calendar.Date} : Format.dateOfNumber x.abs = .ok (some d) →
    DateIs x.toValue d

/-- A value that is shown as it is under every format with a single section: it neither counts as a
number nor is a date. -/
inductive Value.Unformatted : Value → Prop
  | null : Unformatted .null
  | bool (b : Bool) : Unformatted (.bool b)
  | text {s : String} : numberOfText s = .ok none → Unformatted (.text s)
  | collection {v : Value} : v.IsCollection → Unformatted v

end Spreadsheet
