import Spreadsheet.Format.Section
import Spreadsheet.Text.Blank
import Spreadsheet.Value.Display
import Spreadsheet.Value.Number

/-!
# Display under a number format

`Format.display` shows a value under a format. The section is chosen by the sign of the value. A
section with date letters and without digit places shows a date; any other one shows the number in
the first run of digit places, with the literals around it. Text is shown by the fourth section.
-/

namespace Spreadsheet

structure Shown where
  text : String
  color : Option String
deriving DecidableEq, Repr

namespace Format

open Calendar Text

/-! ## Literals -/

/-- The literal parts of a section: text in quotes and characters after a backslash as they are, a
blank for `_` and its character, nothing for `*` and its character. -/
def literal (cs : List Char) : List Char :=
  match cs with
  | [] => []
  | [c] => [c]
  | c :: d :: rest =>
    if c = '"' then
      match _h : cutAt? '"' (d :: rest) with
      | some (content, rest') => content ++ literal rest'
      | none => c :: literal (d :: rest)
    else if d = '\n' then c :: literal (d :: rest)
    else if c = '\\' then d :: literal rest
    else if c = '_' then ' ' :: literal rest
    else if c = '*' then literal rest
    else c :: literal (d :: rest)
termination_by cs.length
decreasing_by
  · have := length_of_cutAt? _h
    simp only [List.length_cons] at this ⊢
    omega
  all_goals simp only [List.length_cons]; omega

/-! ## Dates -/

/-- A part of a date that letters of a section ask for. -/
inductive DatePart
  | year4
  | year2
  | monthName
  | monthShort
  | month2
  | month
  | weekdayName
  | weekdayShort
  | day2
  | day
deriving DecidableEq, Repr

/-- The date letters with their parts; longer ones come first. -/
def dateTokens : List (String × DatePart) :=
  [("yyyy", .year4), ("yy", .year2), ("mmmm", .monthName), ("mmm", .monthShort), ("mm", .month2),
   ("m", .month), ("dddd", .weekdayName), ("ddd", .weekdayShort), ("dd", .day2), ("d", .day)]

/-- The date letters at the start of a text, in either case, with their number. -/
def takeDateToken? (cs : List Char) : Option (DatePart × Nat) :=
  (dateTokens.find? fun t => t.1.toList.isPrefixOf (cs.map lowerAscii)).map fun t => (t.2, t.1.length)

/-- The text of a part of a date. -/
def DatePart.text (part : DatePart) (date : Date) : String :=
  let c := date.civil
  match part with
  | .year4 => paddedText 4 c.year
  | .year2 => paddedText 2 (c.year % 100)
  | .monthName => date.monthName
  | .monthShort => abbreviation date.monthName
  | .month2 => paddedText 2 c.month
  | .month => paddedText 1 c.month
  | .weekdayName => date.weekdayName
  | .weekdayShort => abbreviation date.weekdayName
  | .day2 => paddedText 2 c.day
  | .day => paddedText 1 c.day

/-- Replaces the date letters of a text without quotes. -/
def fillDate (date : Date) (cs : List Char) : List Char :=
  match cs with
  | [] => []
  | c :: rest =>
    match takeDateToken? ((c :: rest).take 4) with
    | some (part, length) => (part.text date).toList ++ fillDate date (rest.drop (length - 1))
    | none => c :: fillDate date rest
termination_by cs.length
decreasing_by all_goals simp_wf; try omega

/-- The runs of a pattern: the characters before the first text in quotes, then each text in quotes
with the characters behind it. -/
def runs : List Piece → List Char × List (List Char × List Char)
  | [] => ([], [])
  | .bare c :: rest => let (first, more) := runs rest; (c :: first, more)
  | .quoted content :: rest => let (first, more) := runs rest; ([], (content, first) :: more)

/-- A date under a section: text in quotes as it is, date letters elsewhere filled in. -/
def renderDate (date : Date) (section_ : List Char) : String :=
  let (first, more) := runs (pieces section_)
  String.ofList (fillDate date first ++ more.flatMap fun (content, after) =>
    content ++ fillDate date after)

def isPlace (c : Char) : Bool := c == '#' || c == '0' || c == '?'

def hasDateToken : List Char → Bool
  | [] => false
  | c :: rest => (takeDateToken? ((c :: rest).take 4)).isSome || hasDateToken rest

/-- The section asks for a date: outside of quotes it has date letters and no digit places. -/
def isDateSection (section_ : List Char) : Bool :=
  let bare := outsideQuotes section_
  !bare.any isPlace && hasDateToken bare

/-! ## Numbers -/

/-- The run of digit places at the start of a text: places and commas, or a point with places. -/
def takePattern (cs : List Char) : List Char :=
  match cs with
  | [] => []
  | c :: rest =>
    if isPlace c then
      let whole := cs.takeWhile fun d => isPlace d || d == ','
      match cs.dropWhile fun d => isPlace d || d == ',' with
      | '.' :: rest => whole ++ '.' :: rest.takeWhile isPlace
      | _ => whole
    else if c = '.' then
      let places := rest.takeWhile isPlace
      if places.isEmpty then [] else '.' :: places
    else []

/-- The first run of digit places of a text. -/
def findPattern? : List Char → Option (List Char)
  | [] => none
  | c :: rest =>
    let pattern := takePattern (c :: rest)
    if pattern.isEmpty then findPattern? rest else some pattern

/-- The text before the first occurrence of a part, and the text behind it. -/
def cutAround? (part : List Char) : List Char → Option (List Char × List Char)
  | [] => if part.isEmpty then some ([], []) else none
  | c :: rest =>
    if part.isPrefixOf (c :: rest) then some ([], (c :: rest).drop part.length)
    else (cutAround? part rest).map fun (a, b) => (c :: a, b)

/-- A number with the places and the grouping of a run of digit places. -/
def fillPattern (number : Number) (pattern : List Char) : Except Fault (List Char) := do
  let whole := pattern.takeWhile (· != '.')
  let places := (pattern.dropWhile (· != '.')).drop 1
  let x ← number.toFloat
  return (Numeral.fixed x places.length (whole.contains ',')).toList

/-- A number under a section. -/
def renderNumber (number : Number) (section_ : List Char) : Except Fault (List Char) := do
  let bare := outsideQuotes section_
  let number ← if bare.contains '%' then number.mul (.int 100) else pure number
  match findPattern? bare with
  | none => return literal section_
  | some pattern =>
    let body ← fillPattern number pattern
    match cutAround? pattern section_ with
    | none => return body
    | some (before, after) => return literal before ++ body ++ literal after

/-! ## Values -/

/-- The format shows values as they are. -/
def isPlain (format : String) : Bool :=
  let cs := stripChars format.toList
  format == "" || cs == ['@'] || cs.map lowerAscii == "general".toList

def showPlain (v : Value) : Except Fault Shown := do
  return ⟨← v.display, none⟩

/-- The date whose serial number a number is, its fraction dropped. The number has to be within the
range of doubles. -/
def dateOfNumber (n : Number) : Except Fault (Option Date) := do
  let _ ← n.toFloat
  return n.truncate?.bind Date.ofSerial?

def splitAtSigns : List Char → List (List Char)
  | [] => [[]]
  | c :: rest =>
    match splitAtSigns rest with
    | [] => [[c]]
    | part :: parts => if c = '@' then [] :: part :: parts else (c :: part) :: parts

/-- A value that is no number: text goes into the fourth section in place of each at sign. -/
def showText (v : Value) (sections : List (List Char)) : Except Fault Shown :=
  match v, sections[3]? with
  | .text s, some raw => do
    let (section_, color) ← prepare raw
    let parts := (splitAtSigns section_).map literal
    return ⟨String.ofList (s.toList.intercalate parts), color⟩
  | v, _ => showPlain v

/-- A number by the section for its sign; only the first section shows a minus sign. -/
def showNumber (v : Value) (number : Number) (sections : List (List Char)) :
    Except Fault Shown := do
  let (raw, minus, number) :=
    match number.isNegative, number.isZero, sections with
    | true, _, _ :: second :: _ => (second, false, number.neg)
    | _, true, _ :: _ :: third :: _ => (third, false, number)
    | negative, _, first :: _ => (first, negative, number.abs)
    | negative, _, [] => ([], negative, number.abs)
  let (section_, color) ← prepare raw
  if isDateSection section_ then
    match ← dateOfNumber number with
    | some date => return ⟨renderDate date section_, color⟩
    | none => showPlain v
  else
    let body ← renderNumber number section_
    return ⟨String.ofList (if minus then '-' :: body else body), color⟩

/-- The number that a value is or counts as; a double is taken as it is. -/
def numberOf? (v : Value) : Except Fault (Option Number) :=
  match v with
  | .int n => .ok (some (.int n))
  | .float x => .ok (some (.float x))
  | v => v.number?

/-- A date by the first section where that asks for a date, else by its serial number. -/
def showDate (date : Date) (serial : Except Fault Value) (sections : List (List Char)) :
    Except Fault Shown := do
  let (section_, color) ← prepare (sections.headD [])
  if isDateSection section_ then return ⟨renderDate date section_, color⟩
  else
    let v ← serial
    match ← numberOf? v with
    | some number => showNumber v number sections
    | none => showText v sections

/-- The serial number of a date or moment as a value. -/
def serialOf (v : Value) : Except Fault Value := do
  return ((← v.number?).map Number.toValue).getD .null

/-- A value under a number format. -/
def display (v : Value) (format : Option String) : Except Fault Shown :=
  match format with
  | none => showPlain v
  | some format =>
    if isPlain format then showPlain v
    else
      let sections := splitSections format.toList
      match v with
      | .null | .bool _ => showPlain v
      | .date d => showDate d (serialOf v) sections
      | .moment t => showDate t.date (serialOf v) sections
      | v => do
        match ← numberOf? v with
        | some number => showNumber v number sections
        | none => showText v sections

end Format

end Spreadsheet
