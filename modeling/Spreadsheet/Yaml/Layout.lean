import Spreadsheet.Yaml.ScalarText

/-!
# YAML: layout

The tokens of a text, with those that its indentation stands for. A token that may turn out to be the
key of an entry is remembered, for each level of brackets the last one; a colon behind it on the
same line puts a key token in front of it. In a block the column of a token tells which collections
it ends and whether it begins one.
-/

namespace Spreadsheet.Yaml

/-- A token that may be the key of an entry. -/
structure PossibleKey where
  /-- How many tokens stand before it. -/
  number : Nat
  /-- Its place allows nothing but a key. -/
  required : Bool
  start : Position
deriving DecidableEq

/-- The state of the layout behind some characters. -/
structure Layout where
  tokens : Array Token := #[]
  /-- The column of the innermost block, -1 outside of blocks. -/
  indent : Int := -1
  /-- The columns of the blocks around it. -/
  outer : List Int := []
  /-- The possible keys, from the innermost level of brackets to the level outside of all. -/
  keys : List (Option PossibleKey) := [none]
  /-- A key may start here. -/
  keyAllowed : Bool := true

namespace Layout

/-- The place is inside of brackets or braces. -/
def inFlow (s : Layout) : Bool := decide (1 < s.keys.length)

def push (s : Layout) (t : Token) : Layout := { s with tokens := s.tokens.push t }

/-- Puts a token in front of the one with a number. -/
def insert (s : Layout) (number : Nat) (t : Token) : Layout :=
  { s with tokens := (s.tokens.extract 0 number).push t ++
      s.tokens.extract number s.tokens.size }

def allowKey (s : Layout) (allowed : Bool) : Layout := { s with keyAllowed := allowed }

/-! ## Possible keys -/

def forgetKey (s : Layout) : Except Fault Layout :=
  match s.keys with
  | some k :: rest => if k.required then .error .token else .ok { s with keys := none :: rest }
  | _ => .ok s

/-- Remembers the token that starts at a position as a possible key. -/
def rememberKey (s : Layout) (p : Position) : Except Fault Layout :=
  if s.keyAllowed then do
    let s ← s.forgetKey
    let key : PossibleKey := ⟨s.tokens.size, !s.inFlow && s.indent == p.column, p⟩
    return { s with keys := some key :: s.keys.tail }
  else .ok s

/-- Whether a key is still possible at a position: on the same line, up to 1024 characters on. -/
def PossibleKey.reaches (k : PossibleKey) (p : Position) : Bool :=
  k.start.line == p.line && decide (p.index ≤ k.start.index + 1024)

/-- Forgets the keys that are no longer possible at a position. -/
def forgetStaleKeys (s : Layout) (p : Position) : Except Fault Layout := do
  let keys ← s.keys.mapM fun
    | some k =>
      if PossibleKey.reaches k p then pure (some k)
      else if k.required then .error .token
      else pure none
    | none => pure none
  return { s with keys := keys }

/-- The number of tokens whose meaning no possible key can change. -/
def settled (s : Layout) : Nat :=
  s.keys.foldl (fun n k => (k.map fun k => min n k.number).getD n) s.tokens.size

/-! ## Blocks -/

/-- The number of blocks that end before a column, and the columns of those that go on. -/
def blocksEnding (column indent : Int) : List Int → Nat × Int × List Int
  | [] => (0, indent, [])
  | next :: rest =>
    if column < indent then
      let (n, indent, outer) := blocksEnding column next rest
      (n + 1, indent, outer)
    else (0, indent, next :: rest)

/-- Ends the blocks that a token at a column does not belong to. -/
def endBlocks (s : Layout) (column : Int) : Layout :=
  if s.inFlow then s
  else
    let (n, indent, outer) := blocksEnding column s.indent s.outer
    { s with
      tokens := s.tokens ++ Array.replicate n .blockEnd
      indent := indent
      outer := outer }

/-- Begins a block at a column, where none goes on there; its token goes in front of the one with
a number. -/
def beginBlock (s : Layout) (column : Nat) (t : Token) (number : Nat) : Layout :=
  if s.indent < column then
    { s.insert number t with indent := column, outer := s.indent :: s.outer }
  else s

/-- Begins a block with the indicator at a column; outside of brackets it has to stand where a key
may start. -/
def beginEntry (s : Layout) (p : Position) (t : Token) : Except Fault Layout :=
  if s.inFlow then .ok s
  else if s.keyAllowed then .ok (s.beginBlock p.column t s.tokens.size)
  else .error .token

/-! ## Tokens -/

/-- A token that ends all blocks. -/
def endAll (s : Layout) (t : Token) : Except Fault Layout := do
  return ((← (s.endBlocks (-1)).forgetKey).allowKey false).push t

def openFlow (s : Layout) (p : Position) (t : Token) : Except Fault Layout := do
  let s ← s.rememberKey p
  return ({ s with keys := none :: s.keys }.allowKey true).push t

def closeFlow (s : Layout) (t : Token) : Except Fault Layout := do
  let s ← s.forgetKey
  let keys := if s.inFlow then s.keys.tail else s.keys
  return ({ s with keys := keys }.allowKey false).push t

def dash (s : Layout) (p : Position) : Except Fault Layout := do
  let s ← s.beginEntry p .blockSequence
  return (← (s.allowKey true).forgetKey).push .dash

/-- A question mark before a key. -/
def explicitKey (s : Layout) (p : Position) : Except Fault Layout := do
  let s ← s.beginEntry p .blockMapping
  return (← (s.allowKey !s.inFlow).forgetKey).push .key

/-- A colon before a value. A possible key of the same level is one by that. -/
def colon (s : Layout) (p : Position) : Except Fault Layout :=
  match s.keys with
  | some k :: rest =>
    let s := { s with keys := none :: rest }.insert k.number .key
    let s := if s.inFlow then s else s.beginBlock k.start.column .blockMapping k.number
    .ok ((s.allowKey false).push .value)
  | _ => do
    let s ← s.beginEntry p .blockMapping
    return (s.allowKey !s.inFlow).push .value

/-- A token that may be a key or stand in front of one. -/
def keyLike (s : Layout) (p : Position) (t : Token) (allowed : Bool) : Except Fault Layout := do
  return ((← s.rememberKey p).allowKey allowed).push t

/-- The characters that cannot start plain text. -/
def isIndicator (c : Char) : Bool :=
  isBlank c || isBreak c || "-?:,[]\x7b\x7d#&*!|>'\"%@\x60".toList.contains c

def startsPlain (s : Layout) (c : Char) (rest : List Char) : Bool :=
  !isIndicator c || (!atBlank rest && (c == '-' || (!s.inFlow && (c == '?' || c == ':'))))

/-- The number of characters between a text and what is left of it. -/
def taken (cs rest : List Char) : Nat := cs.length - rest.length

/-- Reads the token that starts with a character at a position, and gives the number of characters
that it takes behind that one. -/
def step (s : Layout) (p : Position) (c : Char) (cs : List Char) : Except Fault (Layout × Nat) := do
  if c == '%' && p.column == 0 then
    let (directive, rest) ← takeDirective cs
    return (← s.endAll (.directive directive), taken cs rest)
  else if p.column == 0 && atDocumentMark '-' (c :: cs) then
    return (← s.endAll .documentStart, 2)
  else if p.column == 0 && atDocumentMark '.' (c :: cs) then
    return (← s.endAll .documentEnd, 2)
  else if c == '[' then return (← s.openFlow p .flowSequence, 0)
  else if c == '\x7b' then return (← s.openFlow p .flowMapping, 0)
  else if c == ']' then return (← s.closeFlow .flowSequenceEnd, 0)
  else if c == '\x7d' then return (← s.closeFlow .flowMappingEnd, 0)
  else if c == ',' then return ((← (s.allowKey true).forgetKey).push .comma, 0)
  else if c == '-' && atBlank cs then return (← s.dash p, 0)
  else if c == '?' && (s.inFlow || atBlank cs) then return (← s.explicitKey p, 0)
  else if c == ':' && (s.inFlow || atBlank cs) then return (← s.colon p, 0)
  else if c == '*' then
    let (name, rest) ← takeName cs
    return (← s.keyLike p (.alias name) false, taken cs rest)
  else if c == '&' then
    let (name, rest) ← takeName cs
    return (← s.keyLike p (.anchor name) false, taken cs rest)
  else if c == '!' then
    let (tag, rest) ← takeTag cs
    return (← s.keyLike p tag false, taken cs rest)
  else if (c == '|' || c == '>') && !s.inFlow then
    let s ← (s.allowKey true).forgetKey
    let (text, size) ← takeBlock (c == '>') (s.indent + 1).toNat cs
    return (s.push (.scalar (String.ofList text) false), size)
  else if c == '\'' || c == '"' then
    let s ← s.rememberKey p
    let (text, size) ← takeQuoted (c == '"') cs
    return ((s.allowKey false).push (.scalar (String.ofList text) false), size)
  else if s.startsPlain c cs then
    let plain := takePlain s.inFlow (s.indent + 1).toNat (c :: cs)
    return (← s.keyLike p (.scalar (String.ofList plain.text) true) plain.endsLine, plain.size - 1)
  else .error .token

end Layout

/-- The number of characters at the start of a text that belong to no token: spaces, line breaks
and comments. -/
def gapLength (inComment : Bool) : List Char → Nat
  | [] => 0
  | c :: rest =>
    if isBreak c then gapLength false rest + 1
    else if inComment || c == ' ' then gapLength inComment rest + 1
    else if c == '#' then gapLength true rest + 1
    else 0

/-- The tokens of a text up to the first fault, if there is one. -/
structure Tokens where
  tokens : Array Token
  fault : Option Fault

/-- The tokens of a text from a position on. A fault hides the tokens whose meaning was not
settled when it was met. -/
def tokensFrom (cs : List Char) (p : Position) (s : Layout) : Tokens :=
  let stop (f : Fault) : Tokens := ⟨s.tokens.extract 0 s.settled, some f⟩
  let size := gapLength false cs
  let gap := cs.take size
  let p := p.afterAll gap
  match (if gap.any isBreak && !s.inFlow then s.allowKey true else s).forgetStaleKeys p with
  | .error f => stop f
  | .ok s =>
    let s := s.endBlocks p.column
    match _h : cs.drop size with
    | [] =>
      match s.endAll .textEnd with
      | .error f => stop f
      | .ok s => ⟨s.tokens, none⟩
    | c :: rest =>
      match (do
        let (s, n) ← s.step p c rest
        let p := p.afterAll (c :: rest.take n)
        return (← s.forgetStaleKeys p, p, n) : Except Fault (Layout × Position × Nat)) with
      | .error f => stop f
      | .ok (s, p, n) => tokensFrom (rest.drop n) p s
termination_by cs.length
decreasing_by
  have := congrArg List.length _h
  simp only [List.length_drop, List.length_cons] at this ⊢
  omega

/-- The tokens of a text. A byte order mark in front counts for nothing. -/
def tokens (cs : List Char) : Tokens :=
  match cs with
  | '\ufeff' :: rest => tokensFrom rest { index := 1 } {}
  | cs => tokensFrom cs {} {}

end Spreadsheet.Yaml
