import Spreadsheet.Numeral.Reading

/-!
# Whole numbers in loose text

In plain form a whole number is a zero alone, or digits that start with another one, and perhaps a
minus sign in front. `WholeText.read` takes looser forms too, which `tidy?` brings into plain form:
white space around the number, a plus sign, zeros in front with underscores among them, single
underscores between digits, and a point with zeros behind. A minus sign may stand in front of the
leading zeros or behind them.
-/

namespace Spreadsheet.Numeral.WholeText

open Text

inductive Fault
  | unreadable
  /-- The number that the text starts with has too many characters. -/
  | tooLong
deriving DecidableEq, Repr

def takeMinus : List Char → List Char × List Char
  | '-' :: rest => (['-'], rest)
  | cs => ([], cs)

/-- Reads a number in plain form to the end of the text. -/
def readPlain (cs : List Char) : Except Fault Int :=
  let (minus, body) := takeMinus cs
  let digits := body.takeWhile isAsciiDigit
  match digits with
  | [] | '0' :: _ :: _ => .error .unreadable
  | _ =>
    if maxDigits < minus.length + digits.length then .error .tooLong
    else if digits.length < body.length then .error .unreadable
    else .ok (if minus.isEmpty then digitsValue digits else -(digitsValue digits : Int))

/-- The text from its first significant character on, zeros and underscores behind a first zero
being dropped; of nothing but zeros, and of zeros in front of a point, the last one is kept. -/
def dropZeros? (cs : List Char) : Option (List Char) :=
  let significant (c : Char) : Bool := c == '-' || ('1' ≤ c && c ≤ '9')
  match cs with
  | [] => none
  | '0' :: rest =>
    let zeros := '0' :: rest.takeWhile fun c => c == '0' || c == '_'
    match rest.dropWhile fun c => c == '0' || c == '_' with
    | [] => zeros.getLast?.map fun z => [z]
    | '.' :: places => zeros.getLast?.map fun z => z :: '.' :: places
    | c :: more => if significant c then some (c :: more) else none
  | c :: _ => if significant c then some cs else none

/-- The text without a point that has only zeros behind it, at least one. -/
def dropPlaces (cs : List Char) : List Char :=
  match cs.dropWhile (· != '.') with
  | '.' :: zero :: zeros =>
    if (zero :: zeros).all (· == '0') then cs.takeWhile (· != '.') else cs
  | _ => cs

/-- No underscore stands at an end of the text or next to another one. -/
def underscoresApart : List Char → Bool
  | [] => true
  | ['_'] => false
  | '_' :: '_' :: _ => false
  | _ :: rest => underscoresApart rest

/-- The text without underscores, where they stand alone inside it; else the text as it is. -/
def dropUnderscores (cs : List Char) : List Char :=
  if cs.head? ≠ some '_' ∧ underscoresApart cs then cs.filter (· != '_') else cs

/-- A looser form of a number in plain form. -/
def tidy? (cs : List Char) : Option (List Char) := do
  let cs := trimChars cs
  let (minus, body) ← match cs with
    | '+' :: '-' :: _ => none
    | '+' :: rest => some ([], rest)
    | cs => some (takeMinus cs)
  return dropUnderscores (dropPlaces (minus ++ (← dropZeros? body)))

/-- The whole number that a text writes. -/
def read (cs : List Char) : Except Fault Int :=
  match readPlain cs, tidy? cs with
  | .error .unreadable, some plain => readPlain plain
  | r, _ => r

end Spreadsheet.Numeral.WholeText
