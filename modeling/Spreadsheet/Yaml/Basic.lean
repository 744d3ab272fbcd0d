import Spreadsheet.Text.Quoted

/-!
# YAML: characters and faults

The characters that matter to the layout of a YAML text, and the reasons for which a text has no
value. A fault tells what failed first: the characters of the text, its tokens, their order, its
names of nodes, or the content of a node.
-/

namespace Spreadsheet.Yaml

/-- Why a YAML text has no value. -/
inductive Fault
  /-- A character that no text may hold. -/
  | unprintable
  /-- A token that is malformed or starts where it is not allowed. -/
  | token
  /-- A token where another one is due. -/
  | order
  /-- An alias without its anchor, an anchor given twice, or a second document. -/
  | reference
  /-- A node that contains itself. -/
  | recursion
  /-- A tag without meaning, or a node that its tag or its place does not allow. -/
  | content
  /-- A date, time or offset outside of its range, or a text that is no number. -/
  | range (message : String)
  /-- A text that is no whole number, or one with too many digits. -/
  | wholeNumber
  /-- A number without any text. -/
  | emptyNumber
  /-- A text that is no truth value. -/
  | truthValue
  /-- A text that is no point in time. -/
  | timestamp
  /-- A character code beyond every code point. -/
  | characterCode
deriving DecidableEq, Repr

/-- A line break; line feeds alone come from the ends of lines of a file. -/
def isBreak (c : Char) : Bool := c == '\n' || c == '\x85' || c == '\u2028' || c == '\u2029'

/-- A line break as content: the two separators stand for themselves, any other is a line feed. -/
def breakContent (c : Char) : Char := if c == '\u2028' || c == '\u2029' then c else '\n'

def isBlank (c : Char) : Bool := c == ' ' || c == '\t'

/-- The text ends or goes on with a character of a class. -/
def endsWith (p : Char → Bool) (cs : List Char) : Bool :=
  match cs with
  | [] => true
  | c :: _ => p c

def atLineEnd (cs : List Char) : Bool := endsWith isBreak cs

/-- The text ends or goes on with a space or a line break. -/
def atSpace (cs : List Char) : Bool := endsWith (fun c => c == ' ' || isBreak c) cs

/-- The text ends or goes on with a blank or a line break. -/
def atBlank (cs : List Char) : Bool := endsWith (fun c => isBlank c || isBreak c) cs

/-- A line that starts or ends a document: three dashes or dots with a blank behind them. -/
def atDocumentMark (mark : Char) (cs : List Char) : Bool :=
  cs.take 3 == [mark, mark, mark] && atBlank (cs.drop 3)

def atSeparator (cs : List Char) : Bool := atDocumentMark '-' cs || atDocumentMark '.' cs

/-- A character of names: letters and digits of ASCII, dash and underscore. -/
def isNameChar (c : Char) : Bool := c.isAlphanum || c == '-' || c == '_'

def isAllowed (c : Char) : Bool :=
  let n := c.toNat
  n == 0x9 || n == 0xa || n == 0xd || decide (0x20 ≤ n ∧ n ≤ 0x7e) || n == 0x85 ||
    decide (0xa0 ≤ n ∧ n ≤ 0xd7ff) || decide (0xe000 ≤ n ∧ n ≤ 0xfffd) || decide (0x10000 ≤ n)

/-- Where a character stands in a text: its number, line and column, counted from 0. -/
structure Position where
  index : Nat := 0
  line : Nat := 0
  column : Nat := 0
deriving DecidableEq, Repr

/-- The position behind a character. A byte order mark takes no column. -/
def Position.after (p : Position) (c : Char) : Position :=
  if isBreak c then ⟨p.index + 1, p.line + 1, 0⟩
  else ⟨p.index + 1, p.line, if c == '\ufeff' then p.column else p.column + 1⟩

def Position.afterAll (p : Position) (cs : List Char) : Position := cs.foldl Position.after p

end Spreadsheet.Yaml
