import Spreadsheet.Formula.Expr

/-!
# Tokens of a formula

`scan` cuts the text after the `=` into tokens, each with the column where it starts. What a text
can start with depends on whether an operand or an operator is due: references, names, numbers and
strings are read only where an operand may stand. Of the operands a reference to a range of a named
table is tried first, then a cell of a named table, a range, a cell, a truth value and a name; so
`TRUE1` is a cell and `TRUEX` a truth value with letters behind it.
-/

namespace Spreadsheet

open Text

/-- A token of a formula. -/
inductive Token
  /-- A number, as it is written. -/
  | number (digits : List Char)
  | bool (b : Bool)
  /-- A string, as it is written between the quotes. -/
  | string (content : List Char)
  | name (letters : List Char)
  /-- A reference to a cell, with the digits of the table that it names. -/
  | cell (table : Option (List Char)) (reference : List Char)
  /-- A reference to a range, with the digits of the table that it names. -/
  | range (table : Option (List Char)) (reference : List Char)
  | operator (op : Operator)
  | percent
  | opening
  | closing
  | comma
  /-- A character with which nothing can start here. -/
  | unknown
deriving DecidableEq

namespace Token

/-- An optional `$`, as written, and what follows it. -/
def takeDollar : List Char → List Char × List Char
  | '$' :: rest => (['$'], rest)
  | cs => ([], cs)

/-- A reference to a cell at the start of the text, and what follows it. -/
def takeCell? (cs : List Char) : Option (List Char × List Char) :=
  let (mark, rest) := takeDollar cs
  let letters := rest.takeWhile isAsciiLetter
  let (mark', rest) := takeDollar (rest.dropWhile isAsciiLetter)
  let digits := rest.takeWhile isAsciiDigit
  if letters.isEmpty || digits.isEmpty then none
  else some (mark ++ letters ++ mark' ++ digits, rest.dropWhile isAsciiDigit)

/-- A reference to a range at the start of the text, and what follows it. -/
def takeRange? (cs : List Char) : Option (List Char × List Char) := do
  match ← takeCell? cs with
  | (first, ':' :: rest) =>
    let (last, rest) ← takeCell? rest
    return (first ++ ':' :: last, rest)
  | _ => none

/-- The digits of a table name such as `T1!`, and what follows it. -/
def takeTable? : List Char → Option (List Char × List Char)
  | [] => none
  | c :: cs =>
    let digits := cs.takeWhile isAsciiDigit
    match cs.dropWhile isAsciiDigit with
    | '!' :: rest => if (c = 'T' ∨ c = 't') ∧ digits ≠ [] then some (digits, rest) else none
    | _ => none

/-- Letters, digits and underscores, the first of which is no digit. -/
def takeName (cs : List Char) : List Char :=
  match cs with
  | [] => []
  | c :: _ =>
    if isAsciiLetter c || c == '_' then
      cs.takeWhile fun d => isAsciiLetter d || isAsciiDigit d || d == '_'
    else []

/-- An exponent with at least one digit, or nothing. -/
def takeExponent : List Char → List Char
  | [] => []
  | c :: cs =>
    let (mark, rest) := match cs with
      | '+' :: rest => (['+'], rest)
      | '-' :: rest => (['-'], rest)
      | rest => ([], rest)
    let digits := rest.takeWhile isAsciiDigit
    if (c = 'e' ∨ c = 'E') ∧ digits ≠ [] then c :: mark ++ digits else []

/-- A number without sign at the start of the text: digits, with an optional fraction and an
optional exponent; empty where there is none. -/
def takeNumber (cs : List Char) : List Char :=
  let whole := cs.takeWhile isAsciiDigit
  match cs.dropWhile isAsciiDigit with
  | '.' :: rest =>
    let fraction := rest.takeWhile isAsciiDigit
    if whole.isEmpty && fraction.isEmpty then []
    else whole ++ '.' :: fraction ++ takeExponent (rest.dropWhile isAsciiDigit)
  | rest => if whole.isEmpty then [] else whole ++ takeExponent rest

/-- What a string holds up to its closing quote, the opening one being read. A backslash and the
character after it stand together; a string ends on the line where it starts. -/
def takeString? : List Char → Option (List Char)
  | [] => none
  | '"' :: _ => some []
  | '\\' :: c :: rest =>
    if c = '\n' then none else (takeString? rest).map fun s => '\\' :: c :: s
  | c :: rest => if c = '\n' ∨ c = '\\' then none else (takeString? rest).map (c :: ·)

def startsWith (word : String) (cs : List Char) : Bool := word.toList.isPrefixOf cs

/-- The reference of a named table, or of the table at hand, with the length of its text. -/
def readReference? (cs : List Char) : Option (Token × Nat) :=
  let named := (takeTable? cs).bind fun (digits, rest) =>
    match takeRange? rest with
    | some (reference, _) => some (range (some digits) reference, digits.length + 2 + reference.length)
    | none => (takeCell? rest).map fun (reference, _) =>
        (cell (some digits) reference, digits.length + 2 + reference.length)
  named.or <|
    ((takeRange? cs).map fun (reference, _) => (range none reference, reference.length)).or
      ((takeCell? cs).map fun (reference, _) => (cell none reference, reference.length))

/-- The symbol at the start of the text, with its length; longer symbols come first. -/
def readSymbol : List Char → Token × Nat
  | '>' :: '=' :: _ => (operator .ge, 2)
  | '<' :: '=' :: _ => (operator .le, 2)
  | '<' :: '>' :: _ => (operator .ne, 2)
  | '>' :: _ => (operator .gt, 1)
  | '<' :: _ => (operator .lt, 1)
  | '=' :: _ => (operator .eq, 1)
  | '+' :: _ => (operator .add, 1)
  | '-' :: _ => (operator .sub, 1)
  | '*' :: _ => (operator .mul, 1)
  | '/' :: _ => (operator .div, 1)
  | '^' :: _ => (operator .pow, 1)
  | '%' :: _ => (percent, 1)
  | '(' :: _ => (opening, 1)
  | ')' :: _ => (closing, 1)
  | ',' :: _ => (comma, 1)
  | _ => (unknown, 1)

/-- The operand or symbol at the start of the text, with its length. -/
def readOperand (cs : List Char) : Token × Nat :=
  match readReference? cs with
  | some found => found
  | none =>
    if startsWith "TRUE" cs then (bool true, 4)
    else if startsWith "FALSE" cs then (bool false, 5)
    else if takeName cs ≠ [] then (name (takeName cs), (takeName cs).length)
    else if takeNumber cs ≠ [] then (number (takeNumber cs), (takeNumber cs).length)
    else match cs with
      | '"' :: rest =>
        match takeString? rest with
        | some content => (string content, content.length + 2)
        | none => (unknown, 1)
      | _ => readSymbol cs

def awaitsOperand : Token → Bool
  | operator _ | opening | comma => true
  | _ => false

end Token

/-- A token with the column where it starts, counted from 1 within its line. -/
structure Lexeme where
  token : Token
  column : Nat

def isGap (c : Char) : Bool := c == ' ' || c == '\t' || c == '\x0c' || c == '\r' || c == '\n'

/-- The tokens of a text that starts at a column, up to the first character with which nothing can
start. -/
def scan (operand : Bool) (column : Nat) (cs : List Char) : List Lexeme :=
  match cs with
  | [] => []
  | c :: rest =>
    if isGap c then scan operand (if c = '\n' then 1 else column + 1) rest
    else
      let (token, length) := if operand then Token.readOperand cs else Token.readSymbol cs
      if token = .unknown then [⟨token, column⟩]
      else ⟨token, column⟩ :: scan token.awaitsOperand (column + length) (rest.drop (length - 1))
termination_by cs.length
decreasing_by all_goals simp_all; try omega

end Spreadsheet
