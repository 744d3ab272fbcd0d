import Spreadsheet.Text.Digit
import Spreadsheet.Yaml.Basic

/-!
# YAML: tokens

The tokens of a YAML text, and the readers of those that stand on a line of their own or before a
node: directives, anchors, aliases and tags. A reader takes the characters behind the one that it is
known by, and gives what is left behind its token.
-/

namespace Spreadsheet.Yaml

open Text

/-- An instruction in front of a document. -/
inductive Directive
  /-- The version of the language. -/
  | version (major minor : Nat)
  /-- The meaning of a handle of tags. -/
  | tagHandle (handle meaning : String)
  | other
deriving DecidableEq, Repr

/-- A token. The layout gives the ones that begin and end the collections of a block. -/
inductive Token
  | directive (d : Directive)
  | documentStart
  | documentEnd
  | textEnd
  | blockSequence
  | blockMapping
  | blockEnd
  | flowSequence
  | flowSequenceEnd
  | flowMapping
  | flowMappingEnd
  /-- The dash before an item. -/
  | dash
  | comma
  /-- What follows is the key of an entry. -/
  | key
  /-- What follows is the value of an entry. -/
  | value
  | alias (name : String)
  | anchor (name : String)
  /-- A tag, its handle apart where it has one. -/
  | tag (handle : Option String) (name : String)
  /-- The text of a scalar, with or without quotes. -/
  | scalar (text : String) (plain : Bool)
deriving DecidableEq, Repr

def skipSpaces (cs : List Char) : List Char := cs.dropWhile (· == ' ')

def skipLine (cs : List Char) : List Char := cs.dropWhile fun c => !isBreak c

/-- The characters behind the end of a line that holds nothing more than a comment. -/
def endLine (cs : List Char) : Except Fault (List Char) :=
  let cs := skipSpaces cs
  let cs := if cs.head? == some '#' then skipLine cs else cs
  if atLineEnd cs then .ok (cs.drop 1) else .error .token

/-! ## Names and tags -/

/-- Reads the name of an anchor or alias. -/
def takeName (cs : List Char) : Except Fault (String × List Char) :=
  let name := cs.takeWhile isNameChar
  let rest := cs.dropWhile isNameChar
  let ends (c : Char) : Bool := isBlank c || isBreak c || "?:,]\x7d%@\x60".toList.contains c
  if !name.isEmpty && endsWith ends rest then .ok (String.ofList name, rest) else .error .token

/-- A character that may stand in a tag as it is. -/
def isTagChar (c : Char) : Bool := c.isAlphanum || "-;/?:@&=+$,_.!~*'()[]".toList.contains c

def decodeBytes (bytes : List UInt8) : Except Fault (List Char) :=
  match String.fromUTF8? (ByteArray.mk bytes.toArray) with
  | some s => .ok s.toList
  | none => .error .token

/-- Reads the name of a tag. A percent sign with two hexadecimal digits stands for a byte; `bytes`
are those read last. -/
def takeTagName (bytes : List UInt8) : List Char → Except Fault (List Char × List Char)
  | '%' :: a :: b :: rest =>
    match hexNumber? [a, b] with
    | some n => takeTagName (bytes ++ [UInt8.ofNat n]) rest
    | none => .error .token
  | c :: rest =>
    if c == '%' then .error .token
    else do
      let text ← decodeBytes bytes
      if isTagChar c then
        let (more, rest) ← takeTagName [] rest
        return (text ++ c :: more, rest)
      else return (text, c :: rest)
  | [] => do return (← decodeBytes bytes, [])

/-- Reads the name of a tag, of one character at least. -/
def takeTagName1 (cs : List Char) : Except Fault (String × List Char) := do
  let (name, rest) ← takeTagName [] cs
  if rest.length < cs.length then return (String.ofList name, rest) else .error .token

/-- Reads the handle of a tag behind its first exclamation mark. -/
def takeHandle (cs : List Char) : Except Fault (String × List Char) :=
  match cs.dropWhile isNameChar with
  | '!' :: rest => .ok (String.ofList ('!' :: cs.takeWhile isNameChar ++ ['!']), rest)
  | _ => .error .token

/-- Reads a tag behind its exclamation mark. -/
def takeTag (cs : List Char) : Except Fault (Token × List Char) := do
  let (token, rest) ← match cs with
    | '<' :: rest => do
      match ← takeTagName1 rest with
      | (name, '>' :: rest) => pure (Token.tag none name, rest)
      | _ => .error .token
    | cs => do
      if atBlank cs then pure (Token.tag none "!", cs)
      else
        let word := cs.takeWhile fun c => !(c == ' ' || isBreak c)
        let (handle, rest) ← if word.contains '!' then takeHandle cs else pure ("!", cs)
        let (name, rest) ← takeTagName1 rest
        pure (Token.tag (some handle) name, rest)
  if atSpace rest then return (token, rest) else .error .token

/-! ## Directives -/

def takeNumber (cs : List Char) : Except Fault (Nat × List Char) :=
  let digits := cs.takeWhile isAsciiDigit
  if digits.isEmpty then .error .token
  else .ok (digitsValue digits, cs.dropWhile isAsciiDigit)

/-- Reads the version of the language. -/
def takeVersion (cs : List Char) : Except Fault (Directive × List Char) := do
  let (major, rest) ← takeNumber (skipSpaces cs)
  match rest with
  | '.' :: rest =>
    let (minor, rest) ← takeNumber rest
    if atSpace rest then return (.version major minor, rest) else .error .token
  | _ => .error .token

/-- Reads a handle of tags and its meaning. -/
def takeTagHandle (cs : List Char) : Except Fault (Directive × List Char) := do
  let (handle, rest) ← match skipSpaces cs with
    | '!' :: ' ' :: rest => pure ("!", ' ' :: rest)
    | '!' :: rest => takeHandle rest
    | _ => .error .token
  if rest.head? == some ' ' then
    let (meaning, rest) ← takeTagName1 (skipSpaces rest)
    if atSpace rest then return (.tagHandle handle meaning, rest) else .error .token
  else .error .token

/-- Reads a directive behind its percent sign, to the end of its line. -/
def takeDirective (cs : List Char) : Except Fault (Directive × List Char) := do
  let name := cs.takeWhile isNameChar
  let rest := cs.dropWhile isNameChar
  if name.isEmpty || !atSpace rest then .error .token
  else
    let (directive, rest) ←
      if name == "YAML".toList then takeVersion rest
      else if name == "TAG".toList then takeTagHandle rest
      else pure (.other, skipLine rest)
    return (directive, ← endLine rest)

end Spreadsheet.Yaml
