import Spreadsheet.Reference.Coordinate

/-!
# Spellings of references

A reference to a cell may be spelled in several ways: with or without `$` marks, with small or
capital letters, with zeros before the row number, and with blanks around it. A range is spelled by
two references with a colon between, and each of them counts with its letters as capitals. A few
letters beyond ASCII have capitals of ASCII, so a range may hold them where a reference may not.
-/

namespace Spreadsheet.Reference

open Text Numeral

def dollar (present : Bool) : List Char := if present then ['$'] else []

/-- The parts of a reference to a cell as it is written. -/
structure Spelling where
  absoluteCol : Bool
  letters : List Char
  absoluteRow : Bool
  digits : List Char
  letters_ne_nil : letters ≠ []
  all_letters : ∀ c ∈ letters, isAsciiLetter c = true
  digits_ne_nil : digits ≠ []
  all_digits : ∀ c ∈ digits, isDigit c = true

namespace Spelling

def chars (s : Spelling) : List Char :=
  dollar s.absoluteCol ++ s.letters ++ dollar s.absoluteRow ++ s.digits

/-- A text is spelled in this way, blanks around it aside. -/
def Spells (s : Spelling) (text : String) : Prop := stripChars text.toList = s.chars

/-- The number of the row, counted from 1. -/
def rowNumber (s : Spelling) : Nat := digitsValue s.digits

/-- The position that is written, for a row number other than zero. -/
def coordinate (s : Spelling) : Coordinate :=
  ⟨s.rowNumber - 1, (columnIndex (String.ofList s.letters)).toNat, s.absoluteRow, s.absoluteCol⟩

/-- The reference without marks, with capital letters and without zeros before the row number. -/
def bare (s : Spelling) : String :=
  upper (String.ofList s.letters) ++ String.ofList (s.digits.dropWhile (· == '0'))

/-- Two spellings differ in nothing but marks and the case of letters. -/
def Alike (s t : Spelling) : Prop :=
  upper (String.ofList s.letters) = upper (String.ofList t.letters) ∧ s.digits = t.digits

end Spelling

/-- Two texts spell references that differ in nothing but marks, the case of letters and the blanks
around them. -/
def Restyled (text text' : String) : Prop :=
  ∃ s t : Spelling, s.Spells text ∧ t.Spells text' ∧ s.Alike t

/-- The text is a reference whose row number has more digits than text may have. -/
def Overlong (text : String) : Prop :=
  ∃ s : Spelling, s.Spells text ∧ maxDigits < s.digits.length

/-! ## Ranges -/

/-- A text has a single colon, between two parts. -/
def Halves (text first last : String) : Prop :=
  text = first ++ ":" ++ last ∧ ':' ∉ first.toList ∧ ':' ∉ last.toList

/-- A text has a single colon, and the parts before and behind it are references to two cells. -/
def Corners (text : String) (a b : Coordinate) : Prop :=
  ∃ first last, Halves text first last ∧ parse first = .ok (some a) ∧ parse last = .ok (some b)

/-- The corners of two pairs are opposite corners of one rectangle. -/
def SameRectangle (a b a' b' : Coordinate) : Prop :=
  (a'.row = a.row ∧ b'.row = b.row ∨ a'.row = b.row ∧ b'.row = a.row) ∧
  (a'.col = a.col ∧ b'.col = b.col ∨ a'.col = b.col ∧ b'.col = a.col)

/-- The character is a letter beyond ASCII whose capitals are letters of ASCII: one of `ß`, `ı`, `ſ`
and the ligatures from `ﬀ` to `ﬆ`. -/
def isForeign (c : Char) : Bool := decide (0x80 ≤ c.toNat) && (upperChar c).all isAsciiLetter

/-- The character, or its capitals where it is a letter beyond ASCII with capitals of ASCII. -/
def nativeChar (c : Char) : List Char := if isForeign c then upperChar c else [c]

/-- The text with the capitals of ASCII in place of the letters beyond ASCII that have them. -/
def native (text : String) : String := String.ofList (text.toList.flatMap nativeChar)

/-- A text has a single colon, and one of the parts before and behind it is a reference whose row
number has more digits than text may have. -/
def OverlongRange (text : String) : Prop :=
  ∃ first last, Halves text first last ∧ (Overlong (native first) ∨ Overlong (native last))

end Spreadsheet.Reference
