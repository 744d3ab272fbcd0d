import Spreadsheet.Formula.Parser
import Spreadsheet.Formula.Rendering
import Spreadsheet.Reference.Spelling

/-!
# References in formulas

The references of a tree from left to right, and what the tokens of its text say about them: a token
for a reference writes the index of a table, if it names one, and one position or two corners. The
letters of tokens count in capitals here, so that a token is the same in whichever case its text has
them.
-/

namespace Spreadsheet

open Text Numeral Reference

/-- No run of digits is longer than a number in text may be. -/
def ShortRuns (cs : List Char) : Prop :=
  ∀ run, run <:+: cs → (∀ c ∈ run, isAsciiDigit c = true) → run.length ≤ maxDigits

namespace Expr

mutual

/-- The references in an expression, from left to right. -/
def references : Expr → List Expr
  | .cell reference table => [.cell reference table]
  | .range reference table => [.range reference table]
  | .call _ args => referencesIn args
  | .binary _ left right => references left ++ references right
  | .literal _ | .missing => []

def referencesIn : List Expr → List Expr
  | [] => []
  | e :: rest => references e ++ referencesIn rest

end

@[simp] theorem references_negate (e : Expr) : e.negate.references = e.references := by
  unfold negate
  split <;> simp [references]

@[simp] theorem references_percent (e : Expr) : e.percent.references = e.references := by
  simp [percent, references]

theorem referencesIn_eq (args : List Expr) : referencesIn args = args.flatMap references := by
  induction args with
  | nil => simp [referencesIn]
  | cons e rest ih => simp [referencesIn, ih]

end Expr

/-- The position that a spelling stands for; none where its row number is zero. -/
def Reference.Spelling.position? (s : Spelling) : Option Coordinate :=
  if s.rowNumber = 0 then none else some s.coordinate

namespace Token

/-- The token with its reference in capital letters. -/
def capital : Token → Token
  | .cell table reference => .cell table (reference.map upperAscii)
  | .range table reference => .range table (reference.map upperAscii)
  | t => t

def isReference : Token → Bool
  | .cell _ _ | .range _ _ => true
  | _ => false

/-- A reference in a tree stands for what a token writes. It names the table whose index the token
writes, or none if the token names none, and it is read as the position that the token writes, for a
range as its two corners; nothing is read from a row number of zero. -/
inductive Denotes : Token → Expr → Prop
  | cell {table : Option (List Char)} {reference : String} (s : Spelling) :
      Reference.parse reference = .ok s.position? →
      Denotes (.cell table s.chars) (.cell reference (table.map fun ds => .index (digitsValue ds)))
  | range {table : Option (List Char)} {reference : String} (s t : Spelling) :
      Reference.parseRange reference = .ok (do return (← s.position?, ← t.position?)) →
      Denotes (.range table (s.chars ++ ':' :: t.chars))
        (.range reference (table.map fun ds => .index (digitsValue ds)))

end Token

/-- The tokens that the text behind the `=` of a formula is cut into, in capital letters. -/
def tokensOf (body : List Char) : List Token := (scan true 2 body).map fun l => l.token.capital

end Spreadsheet
