import Spreadsheet.Yaml.Token

/-!
# YAML: texts of scalars

A scalar is written plain, in single or double quotes, or as a block of lines. A line break inside a
plain or quoted text is folded: alone it stands for a space, several stand for one line break less.
The readers give the text and the number of characters that they took.
-/

namespace Spreadsheet.Yaml

open Text

/-! ## Plain -/

/-- A bracket, brace, comma or question mark ends plain text inside of brackets or braces. -/
def isFlowMark (c : Char) : Bool := ",?[]\x7b\x7d".toList.contains c

/-- The number of characters up to a blank, a colon before a blank, or the end. Inside of brackets
or braces their marks end the text as well, and so does a colon before one. -/
def plainRun (inFlow : Bool) : List Char → Nat
  | [] => 0
  | c :: rest =>
    let stops := isBlank c || isBreak c || (inFlow && isFlowMark c) ||
      (c == ':' && (atBlank rest ||
        (inFlow && endsWith (fun d => isFlowMark d && d != '?') rest)))
    if stops then 0 else plainRun inFlow rest + 1

/-- What stands between two runs of plain text. -/
structure Space where
  /-- The folded text of it. -/
  text : List Char
  /-- How many characters it takes. -/
  size : Nat
  /-- It holds a line break. -/
  hasBreak : Bool
  /-- The column behind it, where it holds a line break. -/
  column : Nat
  /-- It ends at a line that separates documents. -/
  atMark : Bool

/-- The line breaks and spaces from the start of a line on: the breaks, the number of characters,
and the column behind them. They end before a line that separates documents. -/
def blankLines : Nat → List Char → List Char × Nat × Nat × Bool
  | column, [] => ([], 0, column, false)
  | column, c :: rest =>
    if c == ' ' then
      let (breaks, size, column, mark) := blankLines (column + 1) rest
      (breaks, size + 1, column, mark)
    else if isBreak c then
      if atSeparator rest then ([breakContent c], 1, 0, true)
      else
        let (breaks, size, column, mark) := blankLines 0 rest
        (breakContent c :: breaks, size + 1, column, mark)
    else ([], 0, column, false)

/-- The folded text of a line break with the breaks of blank lines behind it. -/
def foldBreaks (first : Char) (more : List Char) : List Char :=
  if breakContent first != '\n' then breakContent first :: more
  else if more.isEmpty then [' '] else more

/-- The space at the start of a text. -/
def takeSpace (cs : List Char) : Space :=
  let spaces := cs.takeWhile (· == ' ')
  match cs.dropWhile (· == ' ') with
  | [] => ⟨spaces, spaces.length, false, 0, false⟩
  | c :: rest =>
    if isBreak c then
      if atSeparator rest then ⟨[], spaces.length + 1, true, 0, true⟩
      else
        let (breaks, size, column, mark) := blankLines 0 rest
        ⟨foldBreaks c breaks, spaces.length + 1 + size, true, column, mark⟩
    else ⟨spaces, spaces.length, false, 0, false⟩

/-- A plain text that has been read. -/
structure PlainText where
  text : List Char := []
  size : Nat := 0
  /-- It ends behind a line break. -/
  endsLine : Bool := false

/-- Reads plain text; in a block its later lines have to reach the column `margin`. -/
def takePlain (inFlow : Bool) (margin : Nat) (cs : List Char) : PlainText :=
  let run := plainRun inFlow cs
  if _hr : run = 0 ∨ cs.head? = some '#' then {}
  else
    let rest := cs.drop run
    let space := takeSpace rest
    let after := rest.drop space.size
    let stops := space.atMark || space.text.isEmpty || after.head? == some '#' ||
      (!inFlow && space.hasBreak && decide (space.column < margin))
    if stops then ⟨cs.take run, run + space.size, space.hasBreak⟩
    else
      let more := takePlain inFlow margin after
      if more.size = 0 then ⟨cs.take run, run + space.size, space.hasBreak⟩
      else ⟨cs.take run ++ space.text ++ more.text, run + space.size + more.size, more.endsLine⟩
termination_by cs.length
decreasing_by
  simp only [List.length_drop]
  have : cs ≠ [] := by
    intro h
    subst h
    simp [run, plainRun] at _hr
  have : 0 < cs.length := List.length_pos_iff.2 this
  omega

/-! ## In quotes -/

/-- The line breaks and blanks behind a line break inside of quotes: the breaks and the number of
characters. A line that separates documents is a fault. -/
def quotedBreaks (atStart : Bool) : List Char → Except Fault (List Char × Nat)
  | [] => .ok ([], 0)
  | c :: rest =>
    if atStart && atSeparator (c :: rest) then .error .token
    else if isBlank c then do
      let (breaks, size) ← quotedBreaks false rest
      return (breaks, size + 1)
    else if isBreak c then do
      let (breaks, size) ← quotedBreaks true rest
      return (breakContent c :: breaks, size + 1)
    else .ok ([], 0)

/-- The blanks at the start of a text inside of quotes, folded, and their number. -/
def quotedSpace (cs : List Char) : Except Fault (List Char × Nat) :=
  let blanks := cs.takeWhile isBlank
  match cs.dropWhile isBlank with
  | [] => .error .token
  | c :: rest =>
    if isBreak c then do
      let (breaks, size) ← quotedBreaks true rest
      return (foldBreaks c breaks, blanks.length + 1 + size)
    else .ok (blanks, blanks.length)

/-- The characters that a backslash with a letter stands for. -/
def escapes : List (Char × Char) :=
  [('0', '\x00'), ('a', '\x07'), ('b', '\x08'), ('t', '\t'), ('\t', '\t'), ('n', '\n'),
   ('v', '\x0b'), ('f', '\x0c'), ('r', '\r'), ('e', '\x1b'), (' ', ' '), ('"', '"'),
   ('\\', '\\'), ('/', '/'), ('N', '\x85'), ('_', '\xa0'), ('L', '\u2028'), ('P', '\u2029')]

/-- The letters before the code of a character, with the number of its digits. -/
def codeEscapes : List (Char × Nat) := [('x', 2), ('u', 4), ('U', 8)]

/-- The character with a code. Two halves of a surrogate pair stay two. -/
def codeChar (n : Nat) : Except Fault Char :=
  if n < 0x110000 then .ok (Text.charOfCode n)
  else if n < 0x80000000 then .error (.range "chr() arg not in range(0x110000)")
  else .error .characterCode

/-- What the characters behind a backslash stand for, and their number. -/
def takeEscape : List Char → Except Fault (List Char × Nat)
  | [] => .error .token
  | c :: rest =>
    match escapes.find? (·.1 == c), codeEscapes.find? (·.1 == c) with
    | some e, _ => .ok ([e.2], 1)
    | none, some e =>
      if (rest.take e.2).length < e.2 then .error .token
      else match hexNumber? (rest.take e.2) with
        | some n => do return ([← codeChar n], e.2 + 1)
        | none => .error .token
    | none, none =>
      if isBreak c then do
        let (breaks, size) ← quotedBreaks true rest
        return (breaks, size + 1)
      else .error .token

/-- Reads text in quotes behind the opening quote: the text, and the number of characters with
the closing quote. In double quotes a backslash escapes, in single quotes a quote is written
twice. -/
def takeQuoted (isDouble : Bool) (cs : List Char) : Except Fault (List Char × Nat) :=
  match cs with
  | [] => .error .token
  | c :: rest =>
    let go (text : List Char) (size : Nat) : Except Fault (List Char × Nat) := do
      let (more, n) ← takeQuoted isDouble (rest.drop size)
      return (text ++ more, size + 1 + n)
    if isBlank c || isBreak c then do
      let (text, size) ← quotedSpace (c :: rest)
      go text (size - 1)
    else if c == '"' && isDouble then .ok ([], 1)
    else if c == '\'' && !isDouble then
      if rest.head? == some '\'' then go ['\''] 1 else .ok ([], 1)
    else if c == '\\' && isDouble then do
      let (text, size) ← takeEscape rest
      go text size
    else go [c] 0
termination_by cs.length
decreasing_by simp only [List.length_drop, List.length_cons]; omega

/-! ## As a block -/

/-- What happens to the line breaks at the end of a block. -/
inductive Chomping
  /-- The last one stays. -/
  | clip
  /-- All are dropped. -/
  | strip
  /-- All stay. -/
  | keep
deriving DecidableEq, Repr

/-- The sign for what happens to the line breaks at the end. -/
def chomping? : Char → Option Chomping
  | '+' => some .keep
  | '-' => some .strip
  | _ => none

/-- The digit for the indentation of a block; zero is none. -/
def indentation? (c : Char) : Option (Except Fault Nat) :=
  if isAsciiDigit c then
    some (if c == '0' then .error .token else .ok (c.toNat - '0'.toNat))
  else none

/-- Reads the signs behind the mark of a block, in either order. -/
def takeBlockSigns (cs : List Char) : Except Fault (Chomping × Option Nat × List Char) := do
  match cs with
  | [] => return (.clip, none, [])
  | c :: rest =>
    match chomping? c, indentation? c with
    | some chomping, _ =>
      match rest with
      | d :: rest' =>
        match indentation? d with
        | some n => return (chomping, some (← n), rest')
        | none => return (chomping, none, rest)
      | [] => return (chomping, none, [])
    | none, some n =>
      let n ← n
      match rest with
      | d :: rest' =>
        match chomping? d with
        | some chomping => return (chomping, some n, rest')
        | none => return (.clip, some n, rest)
      | [] => return (.clip, some n, [])
    | none, none => return (.clip, none, c :: rest)

/-- The blank lines before the first line of a block: their breaks, the number of characters, the
greatest column reached, and the column behind them. -/
def leadingLines : Nat → List Char → List Char × Nat × Nat × Nat
  | column, [] => ([], 0, column, column)
  | column, c :: rest =>
    if c == ' ' then
      let (breaks, size, greatest, last) := leadingLines (column + 1) rest
      (breaks, size + 1, greatest, last)
    else if isBreak c then
      let (breaks, size, greatest, last) := leadingLines 0 rest
      (breakContent c :: breaks, size + 1, max column greatest, last)
    else ([], 0, column, column)

/-- The blank lines from a column on, of which up to `indent` columns are skipped: their breaks,
the number of characters, and the column behind them. -/
def skippedLines (indent : Nat) : Nat → List Char → List Char × Nat × Nat
  | column, [] => ([], 0, column)
  | column, c :: rest =>
    if c == ' ' && decide (column < indent) then
      let (breaks, size, column) := skippedLines indent (column + 1) rest
      (breaks, size + 1, column)
    else if isBreak c then
      let (breaks, size, column) := skippedLines indent 0 rest
      (breakContent c :: breaks, size + 1, column)
    else ([], 0, column)

/-- The lines of a block from the first one on: their text, the break behind the last one, the
breaks of blank lines behind that, and the number of characters. -/
def blockLines (folded : Bool) (indent : Nat) (cs : List Char) :
    List Char × List Char × List Char × Nat :=
  let size := (cs.takeWhile fun c => !isBreak c).length
  let line := cs.take size
  match _h : cs.drop size with
  | [] => (line, [], [], size)
  | c :: rest =>
    let (breaks, skipped, column) := skippedLines indent 0 rest
    let after := rest.drop skipped
    let total := size + 1 + skipped
    if column == indent && !after.isEmpty then
      let joins := folded && breakContent c == '\n' && !endsWith isBlank line &&
        !endsWith isBlank after
      let between :=
        if joins then (if breaks.isEmpty then [' '] else breaks) else breakContent c :: breaks
      let (text, last, tail, more) := blockLines folded indent after
      (line ++ between ++ text, last, tail, total + more)
    else (line, [breakContent c], breaks, total)
termination_by cs.length
decreasing_by
  have := congrArg List.length _h
  simp only [List.length_drop, List.length_cons] at this ⊢
  omega

/-- Reads a block behind its mark: the text, and the number of characters. The lines of the block
are indented at least to `margin`. -/
def takeBlock (folded : Bool) (margin : Nat) (cs : List Char) :
    Except Fault (List Char × Nat) := do
  let (chomping, indentation, rest) ← takeBlockSigns cs
  if !atSpace rest then .error .token
  let rest ← endLine rest
  let head := cs.length - rest.length
  let margin := max margin 1
  let (breaks, skipped, column, indent) := match indentation with
    | some n =>
      let indent := margin + n - 1
      let (breaks, size, column) := skippedLines indent 0 rest
      (breaks, size, column, indent)
    | none =>
      let (breaks, size, greatest, column) := leadingLines 0 rest
      (breaks, size, column, max margin greatest)
  let after := rest.drop skipped
  let (text, last, tail, size) :=
    if column == indent && !after.isEmpty then
      let (text, last, tail, size) := blockLines folded indent after
      (breaks ++ text, last, tail, size)
    else ([], [], breaks, 0)
  let ending := match chomping with
    | .strip => []
    | .clip => last
    | .keep => last ++ tail
  return (text ++ ending, head + skipped + size)

end Spreadsheet.Yaml
