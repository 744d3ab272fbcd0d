import Spreadsheet.Text.Blank
import Spreadsheet.Text.Digit
import Spreadsheet.Text.Upper
import Spreadsheet.Value.Display

/-!
# References to cells and ranges

A reference is column letters and a row number, each possibly after a `$`; rows are counted from
1. A range is two references with a colon between and covers the rectangle between them. Row
numbers may use the digits of any script and are limited in length like every whole number in text.

Columns are named `A` to `Z`, then `AA`, `AB` and so on: numerals in base 26 without a zero, while
their indices start at 0.
-/

namespace Spreadsheet.Reference

open Text

/-! ## Column letters -/

/-- Index of the column with the given letters, in either case. Every character counts by its
distance from the one before `A`, and no letters at all give -1. -/
def columnIndex (letters : String) : Int :=
  (Text.upper letters).toList.foldl (fun n c => n * 26 + ((c.toNat : Int) - 64)) 0 - 1

/-- Letters of the `n`-th column, counted from 1. -/
def lettersOf (n : Nat) : List Char :=
  if n = 0 then [] else lettersOf ((n - 1) / 26) ++ [Char.ofNat (65 + (n - 1) % 26)]
termination_by n
decreasing_by omega

/-- Letters of the column with an index; none for a negative one. -/
def columnLetters (index : Int) : String := String.ofList (lettersOf (index + 1).toNat)

/-! ## Cells and ranges -/

/-- The position of a cell, counted from 0, with the `$` marks of the reference that gave it. -/
structure Coordinate where
  row : Nat
  col : Nat
  absoluteRow : Bool
  absoluteCol : Bool
deriving DecidableEq, Repr

def make (row col : Int) : Except Fault String := do
  return columnLetters col ++ (← integerText (row + 1))

/-- An optional `$`, and what follows it. -/
def takeDollar : List Char → Bool × List Char
  | '$' :: rest => (true, rest)
  | cs => (false, cs)

/-- Reads a reference to a cell, blanks around it aside. -/
def parse (text : String) : Except Fault (Option Coordinate) :=
  let (absoluteCol, rest) := takeDollar (stripChars text.toList)
  let letters := rest.takeWhile isAsciiLetter
  let (absoluteRow, digits) := takeDollar (rest.dropWhile isAsciiLetter)
  if letters.isEmpty || digits.isEmpty || !digits.all isDigit then .ok none
  else if digits.length > Numeral.maxDigits then .error .digitLimit
  else
    match digitsValue digits with
    | 0 => .ok none
    | row + 1 =>
      .ok (some ⟨row, (columnIndex (String.ofList letters)).toNat, absoluteRow, absoluteCol⟩)

/-- The parts of a text between colons. -/
def splitColons (cs : List Char) : List (List Char) :=
  match cs with
  | [] => [[]]
  | c :: rest =>
    match splitColons rest with
    | [] => [[c]]
    | part :: parts => if c = ':' then [] :: part :: parts else (c :: part) :: parts

/-- Reads the two corners of a range, whose text counts in upper case. -/
def parseRange (text : String) : Except Fault (Option (Coordinate × Coordinate)) :=
  match splitColons (upper text).toList with
  | [first, second] => do
    let a ← parse (String.ofList first)
    let b ← parse (String.ofList second)
    return do
      let a ← a
      let b ← b
      return (a, b)
  | _ => .ok none

def between (low high : Nat) : List Nat := List.range' low (high + 1 - low)

/-- The positions of the rectangle between two corners, row by row. -/
def rectangle (a b : Coordinate) : List (Nat × Nat) :=
  (between (min a.row b.row) (max a.row b.row)).flatMap fun row =>
    (between (min a.col b.col) (max a.col b.col)).map fun col => (row, col)

/-- The positions that a range covers, row by row. -/
def expand (text : String) : Except Fault (Option (List (Nat × Nat))) := do
  return (← parseRange text).map fun corners => rectangle corners.1 corners.2

end Spreadsheet.Reference
