/-!
# Surrogate pairs

Escapes write a character beyond the first 65536 as the two halves of a surrogate pair. One half
without the other is no character, but text may hold it: it is kept as the character for private use
`0x100000` further on. The characters U+10D800 to U+10DFFF thus always stand for lone halves, and no
text can hold them for themselves. JSON can write a half as an escape again; a file or a terminal
cannot take it.
-/

namespace Spreadsheet.Text

/-- The code of a half of a surrogate pair. -/
def isHalfCode (n : Nat) : Bool := decide (0xd800 ≤ n ∧ n < 0xe000)

/-- The character for a code below `0x110000`, which may be that of a half. -/
def charOfCode (n : Nat) : Char := Char.ofNat (if isHalfCode n then n + 0x100000 else n)

/-- The code of the half that a character stands for. -/
def half? (c : Char) : Option Nat :=
  let n := c.toNat - 0x100000
  if isHalfCode n then some n else none

/-- The character of the two halves of a pair. -/
def joinHalves (high low : Nat) : Char :=
  Char.ofNat (0x10000 + (high - 0xd800) * 0x400 + (low - 0xdc00))

/-- The codes of the two halves of a character beyond the first 65536. -/
def halvesOf (c : Char) : Nat × Nat :=
  let k := c.toNat - 0x10000
  (0xd800 + k / 0x400, 0xdc00 + k % 0x400)

/-- The text holds a half without the other. -/
def hasHalf (s : String) : Bool := s.toList.any fun c => (half? c).isSome

end Spreadsheet.Text
