import Spreadsheet.Formula.Parser

/-!
# Strings in formulas

A string stands between quotes, with a backslash before each of its own quotes and backslashes. Which
quote ends a string is decided by a pattern: it takes any characters of the line, none of them a
backslash at the end, then pairs of backslashes, then the quote, and among all ways to do so the one
with the fewest characters in front.
-/

namespace Spreadsheet

/-- The text with a backslash before each quote and each backslash. -/
def escapedChars (cs : List Char) : List Char :=
  cs.flatMap fun c => if c = '"' ∨ c = '\\' then ['\\', c] else [c]

/-- The text as a string of a formula. -/
def stringLiteral (cs : List Char) : List Char := '"' :: escapedChars cs ++ ['"']

/-- A way in which the pattern of strings matches at the start of a text, behind the opening
quote. -/
structure StringMatch (cs : List Char) where
  body : List Char
  pairs : Nat
  one_line : '\n' ∉ body
  no_backslash : body.getLast? ≠ some '\\'
  closes : body ++ List.replicate (2 * pairs) '\\' ++ ['"'] <+: cs

namespace StringMatch

variable {cs : List Char}

def content (m : StringMatch cs) : List Char := m.body ++ List.replicate (2 * m.pairs) '\\'

/-- No other way to match takes fewer characters before the pairs of backslashes. -/
def IsFirst (m : StringMatch cs) : Prop := ∀ m' : StringMatch cs, m.body.length ≤ m'.body.length

end StringMatch

/-- An operand is due in a state, and this is the stack on which it is put. -/
inductive ParseState.Awaits : ParseState → List Frame → Prop
  | start (stack : List Frame) : Awaits (start stack) stack
  | called (name : String) (stack : List Frame) : Awaits (called name stack) (.call name [] :: stack)

end Spreadsheet
