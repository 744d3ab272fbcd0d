import Mathlib.Algebra.Group.Nat.Even
import Spreadsheet.Format.Section

/-!
# A format read from the left

Text is in quotes where an odd count of quotes stands before it. A format is cut by the quotes behind
a semicolon; the definitions here say what has to follow one (`QuotesPaired`), what a scan from the
left takes for sections (`scanSections`), and what a section is by itself (`IsSection`).
-/

namespace Spreadsheet.Format

/-- The quotes of a text come in pairs: two of them, again and again, then none up to the end. -/
inductive QuotesPaired : List Char → Prop
  | unquoted {cs : List Char} : '"' ∉ cs → QuotesPaired cs
  | pair {a b cs : List Char} : '"' ∉ a → '"' ∉ b → QuotesPaired cs →
    QuotesPaired (a ++ '"' :: (b ++ '"' :: cs))

/-- A scan of a format from the left. -/
structure Scan where
  /-- The sections that have ended. -/
  ended : List (List Char)
  /-- The section in progress. -/
  part : List Char
  /-- The next character is in quotes. -/
  inside : Bool
deriving DecidableEq, Repr

namespace Scan

/-- A quote opens or closes a quoted text; a semicolon outside of them ends a section. -/
def read (s : Scan) (c : Char) : Scan :=
  if c = '"' then ⟨s.ended, s.part ++ [c], !s.inside⟩
  else if c = ';' ∧ s.inside = false then ⟨s.ended ++ [s.part], [], false⟩
  else ⟨s.ended, s.part ++ [c], s.inside⟩

def run (s : Scan) (cs : List Char) : Scan := cs.foldl read s

/-- The sections read so far, the last one as far as it has been read. -/
def sections (s : Scan) : List (List Char) := s.ended ++ [s.part]

end Scan

/-- The sections between the semicolons that a scan from the left finds outside of quotes. -/
def scanSections (cs : List Char) : List (List Char) := (Scan.run ⟨[], [], false⟩ cs).sections

/-- A text is a section by itself: it has an even count of quotes and no semicolon outside of them. -/
structure IsSection (cs : List Char) : Prop where
  even : Even (cs.count '"')
  unmarked : ';' ∉ outsideQuotes cs

end Spreadsheet.Format
