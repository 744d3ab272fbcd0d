import Spreadsheet.Text.Printable
import Spreadsheet.Text.Surrogate

/-!
# Quoted text

Text inside a displayed list stands between single quotes, or between double quotes when it holds
a single quote and no double quote. A backslash, the enclosing quote, line ends and characters
that are not printable are escaped.
-/

namespace Spreadsheet.Text

/-- The lower-case hexadecimal digits of a number, with zeros in front up to a width. -/
def hexText (width n : Nat) : List Char :=
  let digits := Nat.toDigits 16 n
  List.replicate (width - digits.length) '0' ++ digits

/-- A character by its code point, as short as its size allows. -/
def escapedCode (c : Char) : List Char :=
  let n := (half? c).getD c.toNat
  if n < 0x100 then '\\' :: 'x' :: hexText 2 n
  else if n < 0x10000 then '\\' :: 'u' :: hexText 4 n
  else '\\' :: 'U' :: hexText 8 n

/-- A character as it stands between the given quotes. -/
def quotedChar (quote c : Char) : List Char :=
  if c == quote || c == '\\' then ['\\', c]
  else if c == '\n' then ['\\', 'n']
  else if c == '\r' then ['\\', 'r']
  else if c == '\t' then ['\\', 't']
  else if isPrintable c then [c]
  else escapedCode c

def quoted (s : String) : String :=
  let cs := s.toList
  let quote := if cs.contains '\'' && !cs.contains '"' then '"' else '\''
  String.ofList (quote :: cs.flatMap (quotedChar quote) ++ [quote])

end Spreadsheet.Text
