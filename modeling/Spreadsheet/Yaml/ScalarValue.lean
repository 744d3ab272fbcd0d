import Spreadsheet.Numeral.Reading
import Spreadsheet.Text.Blank
import Spreadsheet.Text.Lower
import Spreadsheet.Value.Display
import Spreadsheet.Yaml.Basic

/-!
# YAML: tags and values of scalars

A tag tells what a node stands for. A scalar without a tag gets one from its text if it is plain:
nothing, truth values, numbers in several bases, dates and points in time have forms of their own,
and any other text is a text. `Tag.ofPlain` recognises the forms; `Tag.scalarValue` reads a text
under a tag, which may have been given by hand and need not fit.
-/

namespace Spreadsheet.Yaml

open Calendar Numeral Text

/-- What a node stands for. -/
inductive Tag
  | null
  | bool
  | int
  | float
  | timestamp
  | text
  /-- The key whose value is merged into a mapping. -/
  | merge
  /-- The key of a default value. -/
  | default
  | sequence
  | mapping
  | other (name : String)
deriving DecidableEq, Repr

/-- The tags with a meaning, by the last part of their names. -/
def Tag.table : List (String × Tag) :=
  [("null", .null), ("bool", .bool), ("int", .int), ("float", .float), ("timestamp", .timestamp),
   ("str", .text), ("merge", .merge), ("value", .default), ("seq", .sequence), ("map", .mapping)]

/-- What the names of all tags with a meaning start with. -/
def standardTags : String := "tag:yaml.org,2002:"

def Tag.ofName (name : String) : Tag :=
  match table.find? fun t => standardTags ++ t.1 == name with
  | some t => t.2
  | none => .other name

/-! ## Whole numbers -/

/-- The text has a first character of one class, and only characters of another one behind. -/
def startsThen (first more : Char → Bool) (cs : List Char) : Bool :=
  match cs with
  | [] => false
  | c :: rest => first c && rest.all more

/-- The text is not empty and has only characters of a class. -/
def nonemptyOf (p : Char → Bool) (cs : List Char) : Bool := startsThen p p cs

def isDigitOrLine (c : Char) : Bool := isAsciiDigit c || c == '_'

def isPositiveDigit (c : Char) : Bool := isAsciiDigit c && c != '0'

def splitColons : List Char → List (List Char)
  | [] => [[]]
  | c :: rest =>
    match splitColons rest with
    | [] => [[c]]
    | part :: parts => if c == ':' then [] :: part :: parts else (c :: part) :: parts

/-- Minutes or seconds: up to 59, in one digit or two. -/
def isSixtieth : List Char → Bool
  | [c] => isAsciiDigit c
  | [c, d] => decide ('0' ≤ c ∧ c ≤ '5') && isAsciiDigit d
  | _ => false

/-- The text has the form of a whole number: of base 2, 8, 10, 16, or of base 60 with colons. -/
def isWholeForm (cs : List Char) : Bool :=
  let (_, body) := takeSign cs
  match body, splitColons body with
  | '0' :: 'b' :: digits, _ => nonemptyOf (fun c => c == '0' || c == '1' || c == '_') digits
  | '0' :: 'x' :: digits, _ => nonemptyOf (fun c => (hexValue? c).isSome || c == '_') digits
  | '0' :: digits, _ => digits.all fun c => decide ('0' ≤ c ∧ c ≤ '7') || c == '_'
  | _, first :: more => startsThen isPositiveDigit isDigitOrLine first && more.all isSixtieth
  | _, [] => false

/-- The value of a digit in bases up to 16. -/
def digitInBase? (base : Nat) (c : Char) : Option Nat :=
  ((digitValue? c).or (hexValue? c)).filter (· < base)

/-- The letter that marks a base behind a zero. -/
def baseLetter? : Nat → Option Char
  | 2 => some 'b'
  | 8 => some 'o'
  | 16 => some 'x'
  | _ => none

/-- The digits without the mark of their base: a zero and the letter of the base in either case. -/
def dropBaseMark (base : Nat) : List Char → List Char
  | zero :: letter :: digits =>
    if digitValue? zero = some 0 ∧ baseLetter? base = some letter.toLower then digits
    else zero :: letter :: digits
  | cs => cs

/-- The whole number that digits of a base write; a sign, the mark of the base and white space
around it all are allowed. -/
def wholeInBase (base : Nat) (cs : List Char) : Except Fault Int :=
  let (negative, body) := takeSign (trimChars cs)
  let digits := dropBaseMark base body
  let value := digits.foldl (fun n c => do return (← n) * base + (← digitInBase? base c)) (some 0)
  match digits, value with
  | _ :: _, some n =>
    if base = 10 ∧ maxDigits < digits.length then .error .wholeNumber
    else .ok (if negative then -n else n)
  | _, _ => .error .wholeNumber

/-- The whole number that a text writes; underscores count for nothing. A zero in front stands for
base 8 unless a letter tells another base. -/
def wholeNumber (text : String) : Except Fault Int := do
  let cs := text.toList.filter (· != '_')
  let (negative, body) := takeSign cs
  let size ← match body with
    | [] => .error .emptyNumber
    | ['0'] => .ok 0
    | '0' :: 'b' :: digits => wholeInBase 2 digits
    | '0' :: 'x' :: digits => wholeInBase 16 digits
    | '0' :: digits => wholeInBase 8 ('0' :: digits)
    | body => (splitColons body).foldlM (fun n part => do return n * 60 + (← wholeInBase 10 part)) 0
  return if negative then -size else size

/-! ## Doubles -/

/-- The text is empty or an exponent with a sign. -/
def isExponentForm : List Char → Bool
  | [] => true
  | c :: d :: digits => (c == 'e' || c == 'E') && (d == '+' || d == '-') &&
      nonemptyOf isAsciiDigit digits
  | _ => false

def infinityNames : List String := [".inf", ".Inf", ".INF"]

def notNumberNames : List String := [".nan", ".NaN", ".NAN"]

/-- The text has the form of a double: with a point, and with a sign before an exponent. -/
def isDoubleForm (cs : List Char) : Bool :=
  let (_, body) := takeSign cs
  let whole := body.takeWhile (· != '.')
  match body.dropWhile (· != '.') with
  | [] => false
  | _ :: rest =>
    let exponent := rest.dropWhile isDigitOrLine
    if whole.isEmpty then
      infinityNames.contains (String.ofList body) ||
        (decide (body = cs) && (notNumberNames.contains (String.ofList body) ||
          (startsThen isAsciiDigit isDigitOrLine (rest.takeWhile isDigitOrLine) &&
            isExponentForm exponent)))
    else
      match splitColons whole with
      | [] => false
      | first :: more =>
        startsThen isAsciiDigit isDigitOrLine first && more.all isSixtieth &&
          (if more.isEmpty then isExponentForm exponent else exponent.isEmpty)

/-- The double that a text without underscores writes. -/
def doubleOfText (cs : List Char) : Except Fault Float :=
  let body := trimChars cs
  let (negative, name) := takeSign body
  let infinity := withSign negative infinityBits
  match DecimalText.read? body with
  | some d => .ok d.toFloat
  | none =>
    if name == "inf".toList || name == "infinity".toList then .ok infinity
    else if name == "nan".toList then .ok (infinity - infinity)
    else .error (.range ("could not convert string to float: " ++ quoted (String.ofList cs)))

/-- A sum of doubles in base 60, the last part first. -/
def sixtySum (parts : List Float) : Float :=
  (parts.reverse.foldl (fun (sum, base) part =>
    (sum + part * (ofInt? base).getD (withSign false infinityBits), base * 60)) ((0, 1) : Float × Int)).1

/-- The double that a text writes; underscores count for nothing. -/
def doubleNumber (text : String) : Except Fault Float := do
  let cs := lowerFrom false (text.toList.filter (· != '_'))
  let (negative, body) := takeSign cs
  let size ←
    if cs.isEmpty then .error .emptyNumber
    else if body == ".inf".toList then pure (withSign false infinityBits)
    else if body == ".nan".toList then doubleOfText "nan".toList
    else if body.contains ':' then sixtySum <$> (splitColons body).mapM doubleOfText
    else doubleOfText body
  return if negative then -size else size

/-! ## Points in time -/

/-- The clock of a point in time. -/
inductive Zone
  | universal
  | offset (negative : Bool) (hours minutes : Nat)

/-- A time of day. -/
structure ClockTime where
  hour : Nat
  minute : Nat
  second : Nat
  /-- The digits of the fraction of a second. -/
  fraction : List Char
  zone : Option Zone

/-- A date, or a date with a time of day. -/
structure Stamp where
  civil : Civil
  time : Option ClockTime

/-- Takes up to `most` digits of ASCII, at least `least`. -/
def takeDigits? (least most : Nat) (cs : List Char) : Option (Nat × List Char) :=
  let digits := (cs.take most).takeWhile isAsciiDigit
  if least ≤ digits.length then some (digitsValue digits, cs.drop digits.length) else none

def takeChar? (c : Char) : List Char → Option (List Char)
  | d :: rest => if c == d then some rest else none
  | [] => none

/-- The offset from universal time at the end of a text. -/
def readZone? (cs : List Char) : Option (Option Zone) :=
  match cs, cs.dropWhile isBlank with
  | [], _ => some none
  | _, ['Z'] => some (some .universal)
  | _, c :: rest => do
    if c != '+' && c != '-' then none
    let (hours, rest) ← takeDigits? 1 2 rest
    match rest with
    | [] => return some (.offset (c == '-') hours 0)
    | rest => do
      let (minutes, rest) ← takeDigits? 2 2 (← takeChar? ':' rest)
      if rest.isEmpty then return some (.offset (c == '-') hours minutes) else none
  | _, [] => none

/-- The time of day at the end of a text. -/
def readClock? (cs : List Char) : Option ClockTime := do
  let (hour, rest) ← takeDigits? 1 2 cs
  let (minute, rest) ← takeDigits? 2 2 (← takeChar? ':' rest)
  let (second, rest) ← takeDigits? 2 2 (← takeChar? ':' rest)
  let (fraction, rest) := match rest with
    | '.' :: rest => (rest.takeWhile isAsciiDigit, rest.dropWhile isAsciiDigit)
    | rest => ([], rest)
  return ⟨hour, minute, second, fraction, ← readZone? rest⟩

/-- The point in time that a text writes. -/
def Stamp.read? (cs : List Char) : Option Stamp := do
  let (year, rest) ← takeDigits? 4 4 cs
  let (month, rest) ← takeDigits? 1 2 (← takeChar? '-' rest)
  let (day, rest) ← takeDigits? 1 2 (← takeChar? '-' rest)
  match rest with
  | [] => return ⟨⟨year, month, day⟩, none⟩
  | c :: rest =>
    if c == 'T' || c == 't' then return ⟨⟨year, month, day⟩, some (← readClock? rest)⟩
    else if isBlank c then
      return ⟨⟨year, month, day⟩, some (← readClock? (rest.dropWhile isBlank))⟩
    else none

/-- The text has the form of a point in time; a date alone needs two digits for month and day. -/
def isStampForm (cs : List Char) : Bool :=
  match Stamp.read? cs with
  | some s => s.time.isSome || cs.length == 10
  | none => false

/-- The date of an existing day. -/
def dateOf (c : Civil) : Except Fault Date :=
  if c.year < 1 ∨ 9999 < c.year then
    .error (.range ("year " ++ toString c.year ++ " is out of range"))
  else if c.month < 1 ∨ 12 < c.month then .error (.range "month must be in 1..12")
  else match Date.ofCivil? c with
    | some d => .ok d
    | none => .error (.range "day is out of range for month")

/-- The offset of a clock in seconds: less than a day in either direction. -/
def Zone.seconds : Zone → Except Fault Int
  | .universal => .ok 0
  | .offset negative hours minutes =>
    let size : Int := (hours * 60 + minutes) * 60
    let offset := if negative then -size else size
    if size < 86400 then .ok offset
    else .error (.range ("offset must be a timedelta strictly between -timedelta(hours=24) " ++
      "and timedelta(hours=24), not " ++ spanLiteral offset ++ "."))

/-- The digits of a fraction of a second as microseconds. -/
def microseconds (fraction : List Char) : Nat :=
  let digits := fraction.take 6
  digitsValue (digits ++ List.replicate (6 - digits.length) '0')

/-- The date or moment of a point in time. -/
def Stamp.value (s : Stamp) : Except Fault Value :=
  match s.time with
  | none => do return .date (← dateOf s.civil)
  | some t => do
    let offset ← t.zone.mapM Zone.seconds
    let date ← dateOf s.civil
    if 23 < t.hour then .error (.range "hour must be in 0..23")
    if 59 < t.minute then .error (.range "minute must be in 0..59")
    match Moment.at? date t.hour t.minute t.second (microseconds t.fraction) offset with
    | some m => return .moment m
    | none => .error (.range "second must be in 0..59")

/-! ## Scalars -/

def truthValues : List (String × Bool) :=
  [("yes", true), ("no", false), ("true", true), ("false", false), ("on", true), ("off", false)]

/-- A name in lower case, in upper case, or with a capital. -/
def isSpelled (name text : String) : Bool :=
  text == name || text == name.toUpper || text == name.capitalize

/-- The characters without a line feed behind all others. -/
def dropLineFeed : List Char → List Char
  | [c, '\n'] => [c]
  | c :: rest => c :: dropLineFeed rest
  | [] => []

/-- The tag of a plain scalar without one. A line feed may stand behind any of the forms. -/
def Tag.ofPlain (text : String) : Tag :=
  let cs := dropLineFeed text.toList
  let text := String.ofList cs
  if text == "" || text == "~" || isSpelled "null" text then .null
  else if truthValues.any fun t => isSpelled t.1 text then .bool
  else if isDoubleForm cs then .float
  else if isWholeForm cs then .int
  else if text == "<<" then .merge
  else if isStampForm cs then .timestamp
  else if text == "=" then .default
  else .text

/-- The value of a text under a tag. -/
def Tag.scalarValue (tag : Tag) (text : String) : Except Fault Value :=
  match tag with
  | .null => .ok .null
  | .bool =>
    match truthValues.find? fun t => t.1 == text.toLower with
    | some t => .ok (.bool t.2)
    | none => .error .truthValue
  | .int => do return .int (← wholeNumber text)
  | .float => do return .float (← doubleNumber text)
  | .timestamp =>
    match Stamp.read? (dropLineFeed text.toList) with
    | some s => s.value
    | none => .error .timestamp
  | .text => .ok (.text text)
  | _ => .error .content

end Spreadsheet.Yaml
