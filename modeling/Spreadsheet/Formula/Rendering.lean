import Spreadsheet.Formula.Token

/-!
# Writing formulas

`Expr.tokens` writes a tree as tokens with the fewest parentheses: a part stands in parentheses only
where it binds less tightly than its place asks for. `Spelled` says which texts spell some tokens: a
reference may have its letters in either case, and any run of blanks may stand before a token.
-/

namespace Spreadsheet

open Text Numeral

/-! ## Levels -/

def postfixLevel : Nat := 6

/-- The level of operands that need no parentheses anywhere. -/
def atomLevel : Nat := 7

/-- The level of comparisons, which take any expression. -/
def lowestLevel : Nat := 1

namespace Operator

/-- How tightly the left side of an operator has to bind. -/
def leftLevel : Operator → Nat
  | pow => postfixLevel
  | op => op.level

def rightLevel : Operator → Nat
  | pow => signLevel
  | op => op.level + 1

end Operator

/-! ## Tokens of a tree -/

/-- The tokens, in parentheses where asked. -/
def enclosed (needed : Bool) (ts : List Token) : List Token :=
  if needed then .opening :: ts ++ [.closing] else ts

def tableDigits : Option TableId → Option (List Char)
  | some (.index n) => some (digitsOf n.natAbs)
  | _ => none

namespace Expr

/-- How tightly an expression binds when it is written without parentheses. -/
def level : Expr → Nat
  | .literal (.int n) => if n < 0 then signLevel else atomLevel
  | .binary op _ _ => op.level
  | _ => atomLevel

mutual

/-- The tokens of an expression in a place that asks for some level. -/
def tokens (place : Nat) (e : Expr) : List Token :=
  enclosed (decide (e.level < place)) <| match e with
  | .literal (.int n) =>
    if n < 0 then [.operator .sub, .number (digitsOf n.natAbs)] else [.number (digitsOf n.natAbs)]
  | .literal (.bool b) => [.bool b]
  | .literal (.text s) => [.string s.toList]
  | .cell reference table => [.cell (tableDigits table) reference.toList]
  | .range reference table => [.range (tableDigits table) reference.toList]
  | .call name args => .name name.toList :: .opening :: argumentTokens args ++ [.closing]
  | .binary op left right =>
    tokens op.leftLevel left ++ .operator op :: tokens op.rightLevel right
  | _ => []

def argumentTokens : List Expr → List Token
  | [] => []
  | e :: rest => tokens lowestLevel e ++ furtherTokens rest

/-- The tokens of the arguments after another one. -/
def furtherTokens : List Expr → List Token
  | [] => []
  | e :: rest => .comma :: tokens lowestLevel e ++ furtherTokens rest

end

end Expr

/-! ## Trees that can be written -/

/-- A reference to a cell with letters of a kind: column letters and row digits, each possibly after
a `$`. -/
inductive CellText (letter : Char → Bool) : List Char → Prop
  | mk {mark letters mark' digits : List Char} : (mark = [] ∨ mark = ['$']) →
      letters ≠ [] → (∀ c ∈ letters, letter c) → (mark' = [] ∨ mark' = ['$']) →
      digits ≠ [] → (∀ c ∈ digits, isAsciiDigit c) →
      CellText letter (mark ++ letters ++ mark' ++ digits)

/-- A reference to a range with letters of a kind: two cells with a colon between. -/
inductive RangeText (letter : Char → Bool) : List Char → Prop
  | mk {first last : List Char} : CellText letter first → CellText letter last →
      RangeText letter (first ++ ':' :: last)

def isCapital (c : Char) : Bool := decide ('A' ≤ c ∧ c ≤ 'Z')

def isNameChar (c : Char) : Bool := isAsciiLetter c || isAsciiDigit c || c == '_'

/-- A name that nothing else is tried for: it begins neither with a truth value nor with letters
and a digit behind them. -/
structure NameText (cs : List Char) : Prop where
  chars : ∀ c ∈ cs, isNameChar c
  first : ∃ c, cs.head? = some c ∧ isAsciiDigit c = false
  no_true : ¬ "TRUE".toList <+: cs
  no_false : ¬ "FALSE".toList <+: cs
  no_cell : ∀ c, (cs.dropWhile isAsciiLetter).head? = some c → isAsciiDigit c = false

/-- The text of a string: no quote, backslash or line feed. -/
def StringText (cs : List Char) : Prop := ∀ c ∈ cs, c ≠ '"' ∧ c ≠ '\\' ∧ c ≠ '\n'

/-- No table or one whose index can be written. -/
def WritableTable : Option TableId → Prop
  | none => True
  | some (.index n) => 0 ≤ n ∧ (digitsOf n.natAbs).length ≤ maxDigits
  | some (.other _) => False

namespace Expr

mutual

/-- The expression can be written: its literals are whole numbers within the limit on digits, truth
values and plain strings, its references are in upper case, and its operators have a meaning. -/
def Writable : Expr → Prop
  | .literal (.int n) => (digitsOf n.natAbs).length ≤ maxDigits
  | .literal (.bool _) => True
  | .literal (.text s) => StringText s.toList
  | .cell reference table => CellText isCapital reference.toList ∧ WritableTable table
  | .range reference table => RangeText isCapital reference.toList ∧ WritableTable table
  | .call name args => NameText name.toList ∧ AllWritable args
  | .binary op left right => op ∈ Operator.known ∧ Writable left ∧ Writable right
  | _ => False

def AllWritable : List Expr → Prop
  | [] => True
  | e :: rest => Writable e ∧ AllWritable rest

end

end Expr

/-! ## Texts that spell tokens -/

/-- The upper case of an ASCII letter; any other character is kept. -/
def upperAscii (c : Char) : Char := if 'a' ≤ c ∧ c ≤ 'z' then Char.ofNat (c.toNat - 0x20) else c

/-- A text spells a reference, with the digits of the table that it names. -/
def SpellsReference (table : Option (List Char)) (reference word : List Char) : Prop :=
  match table with
  | none => word.map upperAscii = reference
  | some digits => ∃ mark rest, (mark = 'T' ∨ mark = 't') ∧ rest.map upperAscii = reference ∧
      word = mark :: digits ++ '!' :: rest

/-- A text spells a token. -/
def Token.Spells : Token → List Char → Prop
  | .number digits, word => word = digits
  | .bool b, word => word = (if b then "TRUE" else "FALSE").toList
  | .string content, word => word = '"' :: content ++ ['"']
  | .name letters, word => word = letters
  | .cell table reference, word => SpellsReference table reference word
  | .range table reference, word => SpellsReference table reference word
  | .operator op, word => word = op.symbol.toList
  | .percent, word => word = ['%']
  | .opening, word => word = ['(']
  | .closing, word => word = [')']
  | .comma, word => word = [',']
  | .unknown, _ => False

/-- A text spells some tokens, with blanks before any of them. -/
inductive Spelled : List Token → List Char → Prop
  | nil : Spelled [] []
  | cons {gap word text : List Char} {t : Token} {ts : List Token} : (∀ c ∈ gap, isGap c) →
      t.Spells word → Spelled ts text → Spelled (t :: ts) (gap ++ word ++ text)

end Spreadsheet
