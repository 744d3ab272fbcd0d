import Spreadsheet.Text.Surrogate
import Spreadsheet.Value.Field

/-!
# Reading JSON

`Json.read` takes a whole text and gives the value that it writes. Besides the standard's numbers it
knows `NaN`, `Infinity` and `-Infinity`; a name that a record gives twice has the last value. The
reader goes over the tokens of the text with a stack of the lists and records that are open.
-/

namespace Spreadsheet.Json

open Numeral Text

inductive ReadFault
  | malformed
  /-- A whole number with more digits than text may have. -/
  | digitLimit
deriving DecidableEq, Repr

/-- A token of JSON. -/
inductive Token
  | openList
  | closeList
  | openRecord
  | closeRecord
  | comma
  | colon
  | text (s : String)
  | scalar (v : Value)
  /-- A whole number that is too long. -/
  | tooLong
  | unknown

/-- The number that four hexadecimal digits write. -/
def hex4? (a b c d : Char) : Option Nat := hexNumber? [a, b, c, d]

/-- The character that a backslash with a letter stands for. -/
def escaped? : Char → Option Char
  | '"' => some '"'
  | '\\' => some '\\'
  | '/' => some '/'
  | 'b' => some '\x08'
  | 'f' => some '\x0c'
  | 'n' => some '\n'
  | 'r' => some '\r'
  | 't' => some '\t'
  | _ => none

/-- Reads a string after its opening quote: its characters, and what follows the closing quote. -/
def takeString? : List Char → Option (List Char × List Char)
  | [] => none
  | '"' :: rest => some ([], rest)
  | '\\' :: 'u' :: a :: b :: c :: d :: '\\' :: 'u' :: e :: f :: g :: h :: rest => do
    let high ← hex4? a b c d
    match hex4? e f g h with
    | some low =>
      if 0xd800 ≤ high ∧ high < 0xdc00 ∧ 0xdc00 ≤ low ∧ low < 0xe000 then do
        let (s, rest) ← takeString? rest
        return (joinHalves high low :: s, rest)
      else do
        let (s, rest) ← takeString? ('\\' :: 'u' :: e :: f :: g :: h :: rest)
        return (charOfCode high :: s, rest)
    | none => none
  | '\\' :: 'u' :: a :: b :: c :: d :: rest => do
    let n ← hex4? a b c d
    let (s, rest) ← takeString? rest
    return (charOfCode n :: s, rest)
  | '\\' :: c :: rest => do
    let c ← escaped? c
    let (s, rest) ← takeString? rest
    return (c :: s, rest)
  | c :: rest =>
    if c.toNat < 0x20 ∨ c = '\\' then none
    else do
      let (s, rest) ← takeString? rest
      return (c :: s, rest)

/-- A fraction with at least one digit after its point, or nothing. -/
def takeFraction : List Char → List Char
  | '.' :: rest =>
    let digits := rest.takeWhile isAsciiDigit
    if digits.isEmpty then [] else '.' :: digits
  | _ => []

/-- An exponent with at least one digit, or nothing. -/
def takeExponent : List Char → List Char
  | [] => []
  | c :: cs =>
    let (mark, rest) := match cs with
      | '+' :: rest => (['+'], rest)
      | '-' :: rest => (['-'], rest)
      | rest => ([], rest)
    let digits := rest.takeWhile isAsciiDigit
    if (c = 'e' ∨ c = 'E') ∧ digits ≠ [] then c :: mark ++ digits else []

/-- The digits before the point: a zero alone, or digits that start with another one. -/
def takeWhole : List Char → List Char
  | '0' :: _ => ['0']
  | cs => cs.takeWhile isAsciiDigit

/-- The number at the start of a text, with its length. A whole number may have up to `limit`
digits. -/
def readNumber? (limit : Nat) (cs : List Char) : Option (Token × Nat) :=
  let (mark, body) := match cs with
    | '-' :: rest => (['-'], rest)
    | rest => ([], rest)
  let whole := takeWhole body
  if whole.isEmpty then none
  else
    let rest := body.drop whole.length
    let fraction := takeFraction rest
    let exponent := takeExponent (rest.drop fraction.length)
    let written := mark ++ whole ++ fraction ++ exponent
    let token :=
      match DecimalText.read? written with
      | none => .unknown
      | some d =>
        if !d.isWhole then .scalar (.float d.toFloat)
        else if d.digits.length > limit then .tooLong
        else .scalar (.int d.toInt)
    some (token, written.length)

def words : List (String × Value) :=
  [("null", .null), ("true", .bool true), ("false", .bool false),
   ("NaN", .float (Float.ofBits 0x7ff8000000000000)),
   ("Infinity", .float (Float.ofBits 0x7ff0000000000000)),
   ("-Infinity", .float (Float.ofBits 0xfff0000000000000))]

/-- The word at the start of a text, with its length. -/
def readWord? (cs : List Char) : Option (Token × Nat) :=
  (words.find? fun w => w.1.toList.isPrefixOf cs).map fun w => (.scalar w.2, w.1.length)

/-- The token at the start of a text, with what follows it. -/
def readToken (limit : Nat) (c : Char) (rest : List Char) : Token × List Char :=
  match c with
  | '[' => (.openList, rest)
  | ']' => (.closeList, rest)
  | '{' => (.openRecord, rest)
  | '}' => (.closeRecord, rest)
  | ',' => (.comma, rest)
  | ':' => (.colon, rest)
  | '"' =>
    match takeString? rest with
    | some (s, rest') => (.text (String.ofList s), rest.drop (rest.length - rest'.length))
    | none => (.unknown, rest)
  | c =>
    match (readWord? (c :: rest)).or (readNumber? limit (c :: rest)) with
    | some (token, length) => (token, rest.drop (length - 1))
    | none => (.unknown, rest)

theorem readToken_length (limit : Nat) (c : Char) (rest : List Char) :
    (readToken limit c rest).2.length ≤ rest.length := by
  unfold readToken
  split <;> try simp
  · split <;> simp
  · split <;> simp

def isGap (c : Char) : Bool := c == ' ' || c == '\t' || c == '\n' || c == '\r'

/-- The tokens of a text, up to the first one that is unknown. -/
def tokens (limit : Nat) (cs : List Char) : List Token :=
  match cs with
  | [] => []
  | c :: rest =>
    if isGap c then tokens limit rest
    else
      match readToken limit c rest, readToken_length limit c rest with
      | (.unknown, _), _ => [.unknown]
      | (token, rest'), _ => token :: tokens limit rest'
termination_by cs.length
decreasing_by all_goals simp_all; try omega

/-- A list or record that is open. -/
inductive Frame
  /-- A list with its items so far, the last one first. -/
  | items (done : List Value)
  /-- A record with its fields so far, the last one first, and the name whose value is due. -/
  | fields (done : List (Value × Value)) (name : String)

/-- What has been read, and what is due. -/
inductive ReadState
  | value (stack : List Frame)
  /-- After `[`: an item or the end of the list. -/
  | firstItem (stack : List Frame)
  /-- After `\x7b`: a name or the end of the record. -/
  | firstName (stack : List Frame)
  | name (done : List (Value × Value)) (stack : List Frame)
  | colon (done : List (Value × Value)) (name : String) (stack : List Frame)
  /-- After an item of a list. -/
  | afterItem (done : List Value) (stack : List Frame)
  /-- After a field of a record. -/
  | afterField (done : List (Value × Value)) (stack : List Frame)
  | complete (v : Value)

namespace ReadState

/-- A value has been read. -/
def place (v : Value) : List Frame → ReadState
  | [] => complete v
  | .items done :: stack => afterItem (v :: done) stack
  | .fields done key :: stack => afterField ((.text key, v) :: done) stack

/-- Reads a token where a value is due. -/
def stepValue (stack : List Frame) : Token → Except ReadFault ReadState
  | .openList => .ok (firstItem stack)
  | .openRecord => .ok (firstName stack)
  | .text s => .ok (place (.text s) stack)
  | .scalar v => .ok (place v stack)
  | .tooLong => .error .digitLimit
  | _ => .error .malformed

/-- Reads a token. -/
def step : ReadState → Token → Except ReadFault ReadState
  | value stack, token => stepValue stack token
  | firstItem stack, .closeList => .ok (place (.list []) stack)
  | firstItem stack, token => stepValue (.items [] :: stack) token
  | firstName stack, .closeRecord => .ok (place (.record []) stack)
  | firstName stack, .text s => .ok (colon [] s stack)
  | name done stack, .text s => .ok (colon done s stack)
  | colon done s stack, .colon => .ok (value (.fields done s :: stack))
  | afterItem done stack, .comma => .ok (value (.items done :: stack))
  | afterItem done stack, .closeList => .ok (place (.list done.reverse) stack)
  | afterField done stack, .comma => .ok (name done stack)
  | afterField done stack, .closeRecord =>
    .ok (place (.record (Value.ofFields done.reverse)) stack)
  | _, _ => .error .malformed

end ReadState

/-- The value that a text writes, its whole numbers having up to `limit` digits. -/
def readUpTo (limit : Nat) (text : String) : Except ReadFault Value := do
  match ← (tokens limit text.toList).foldlM ReadState.step (.value []) with
  | .complete v => return v
  | _ => .error .malformed

def read (text : String) : Except ReadFault Value := readUpTo maxDigits text

end Spreadsheet.Json
