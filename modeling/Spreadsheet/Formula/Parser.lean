import Spreadsheet.Formula.Token
import Spreadsheet.Text.Upper

/-!
# Parsing formulas

The parser reads one token after the other. Its state is the operand read last, if there is one,
and a stack of what waits for an operand: open parentheses and calls, unary signs, operators with
their left side. An operator first closes everything on the stack that binds at least as tightly;
only powers group to the right. A token that fits nowhere is a fault at its column, a text that
ends too early one at the column of its last token.
-/

namespace Spreadsheet

open Numeral Text

/-- Something that waits for an operand. -/
inductive Frame
  | group
  /-- A call with the arguments read so far, the last one first. -/
  | call (name : String) (args : List Expr)
  | plus
  | minus
  | binary (op : Operator) (left : Expr)

/-- What has been read, and what may follow. -/
inductive ParseState
  /-- An operand is due. -/
  | start (stack : List Frame)
  /-- A function has been named and its parenthesis is due. -/
  | named (name : String) (stack : List Frame)
  /-- The parenthesis of a call is open: an argument is due, or its end. -/
  | called (name : String) (stack : List Frame)
  /-- An operand is complete. -/
  | complete (operand : Expr) (stack : List Frame)

namespace ParseState

/-- Closes what binds more tightly than an operator of some level; of two equal operators the left
one closes, except for powers. -/
def close (level : Nat) : Expr → List Frame → Expr × List Frame
  | e, .plus :: stack =>
    if level ≤ signLevel then close level e stack else (e, .plus :: stack)
  | e, .minus :: stack =>
    if level ≤ signLevel then close level e.negate stack else (e, .minus :: stack)
  | e, .binary op left :: stack =>
    if level < op.level ∨ (level = op.level ∧ op ≠ .pow) then
      close level (.binary op left e) stack
    else (e, .binary op left :: stack)
  | e, stack => (e, stack)

def numberOf (digits : List Char) : Value :=
  match DecimalText.read? digits with
  | some d => if d.isWhole then .int d.toInt else .float d.toFloat
  | none => .null

/-- Replaces each `\"` by a quote. -/
def unescapeQuotes : List Char → List Char
  | '\\' :: '"' :: rest => '"' :: unescapeQuotes rest
  | c :: rest => c :: unescapeQuotes rest
  | [] => []

/-- Replaces each pair of backslashes by one. -/
def unescapeBackslashes : List Char → List Char
  | '\\' :: '\\' :: rest => '\\' :: unescapeBackslashes rest
  | c :: rest => c :: unescapeBackslashes rest
  | [] => []

def stringOf (content : List Char) : String :=
  String.ofList (unescapeBackslashes (unescapeQuotes content))

def tableOf (digits : Option (List Char)) : Option TableId :=
  digits.map fun ds => .index (digitsValue ds)

/-- The reference in upper case. -/
def referenceOf (reference : List Char) : String := upper (String.ofList reference)

/-- The operand that a token is by itself. -/
def operandOf? : Token → Option Expr
  | .number digits => some (.literal (numberOf digits))
  | .bool b => some (.literal (.bool b))
  | .string content => some (.literal (.text (stringOf content)))
  | .cell table reference => some (.cell (referenceOf reference) (tableOf table))
  | .range table reference => some (.range (referenceOf reference) (tableOf table))
  | _ => none

/-- Reads a token where an operand is due. -/
def stepOperand (stack : List Frame) (token : Token) : Option ParseState :=
  match operandOf? token with
  | some e => some (complete e stack)
  | none =>
    match token with
    | .name letters => some (named (String.ofList letters) stack)
    | .operator .add => some (start (.plus :: stack))
    | .operator .sub => some (start (.minus :: stack))
    | .opening => some (start (.group :: stack))
    | _ => none

/-- Reads a token. -/
def step : ParseState → Token → Option ParseState
  | start stack, token => stepOperand stack token
  | named name stack, .opening => some (called name stack)
  | named _ _, _ => none
  | called name stack, .closing => some (complete (.call name []) stack)
  | called name stack, token => stepOperand (.call name [] :: stack) token
  | complete e stack, .operator op =>
    let (e, stack) := close op.level e stack
    some (start (.binary op e :: stack))
  | complete e stack, .percent => some (complete e.percent stack)
  | complete e stack, .comma =>
    match close 0 e stack with
    | (e, .call name args :: stack) => some (start (.call name (e :: args) :: stack))
    | _ => none
  | complete e stack, .closing =>
    match close 0 e stack with
    | (e, .group :: stack) => some (complete e stack)
    | (e, .call name args :: stack) => some (complete (.call name (e :: args).reverse) stack)
    | _ => none
  | complete _ _, _ => none

/-- The expression that has been read, when nothing is missing. -/
def finish : ParseState → Option Expr
  | complete e stack =>
    match close 0 e stack with
    | (e, []) => some e
    | _ => none
  | _ => none

/-- Reads the tokens to their end, `last` being the column of the token before them. -/
def run (state : ParseState) (last : Nat) : List Lexeme → Except Fault Expr
  | [] =>
    match state.finish with
    | some e => .ok e
    | none => .error (.syntaxError (some last))
  | lexeme :: rest =>
    match state.step lexeme.token with
    | some state => run state lexeme.column rest
    | none => .error (.syntaxError (some lexeme.column))

end ParseState

/-- The token writes a whole number with more digits than text may have. -/
def Token.isTooLong : Token → Bool
  | .number digits => digits.all isAsciiDigit && digits.length > maxDigits
  | .cell (some digits) _ => digits.length > maxDigits
  | .range (some digits) _ => digits.length > maxDigits
  | _ => false

/-- Parses the text of a formula, blanks around it aside. -/
def parseFormula (text : String) : Except Fault Expr :=
  match Text.stripChars text.toList with
  | '=' :: body => do
    let lexemes := scan true 2 body
    let e ← ParseState.run (.start []) 1 lexemes
    if lexemes.any fun l => l.token.isTooLong then .error (.syntaxError none) else return e
  | _ => .error .noFormula

/-- Splits a reference to a named table into the table's index and the reference in upper case;
`none` without the mark between them or where the index is no whole number. -/
def splitTableReference? (text : String) : Option (Int × String) :=
  let cs := text.toList
  if cs.contains '!' then
    let (head, tail) := (cs.takeWhile (· != '!'), cs.dropWhile (· != '!'))
    (wholeNumber? (head.drop 1)).map fun n => (n, upper (String.ofList (tail.drop 1)))
  else none

end Spreadsheet
