import Spreadsheet.Numeral.Decimal
import Spreadsheet.Text.Blank
import Spreadsheet.Text.Digit

/-!
# Reading plain decimal text

Plain decimal text is an optional sign, digits with an optional fraction, and an optional exponent,
in the decimal digits of any script. Without point and exponent it writes a whole number. A whole
number by itself may also have single underscores between its digits.
-/

namespace Spreadsheet.Numeral

open Text

/-- The parts of plain decimal text: the number is the digits times ten to the power of the
exponent less the number of places. -/
structure DecimalText where
  negative : Bool
  /-- Digits before and after the point. -/
  digits : List Char
  /-- Count of the digits after the point. -/
  places : Nat
  exponent : Int
  /-- Neither point nor exponent was written. -/
  isWhole : Bool

/-- An optional sign, and what follows it. -/
def takeSign : List Char → Bool × List Char
  | '-' :: rest => (true, rest)
  | '+' :: rest => (false, rest)
  | cs => (false, cs)

/-- An exponent after its letter: an optional sign and digits to the end of the text. -/
def exponentDigits? (cs : List Char) : Option Int :=
  let (negative, digits) := takeSign cs
  if !digits.isEmpty && digits.all isDigit then
    some (if negative then -(digitsValue digits : Int) else digitsValue digits)
  else none

/-- Reads plain decimal text to its end. -/
def DecimalText.read? (cs : List Char) : Option DecimalText :=
  let (negative, body) := takeSign cs
  let whole := body.takeWhile isDigit
  let rest := body.dropWhile isDigit
  let hasPoint := rest.head? == some '.'
  let rest := if hasPoint then rest.tail else rest
  let fraction := if hasPoint then rest.takeWhile isDigit else []
  let rest := if hasPoint then rest.dropWhile isDigit else rest
  if whole.isEmpty && fraction.isEmpty then none
  else match rest with
    | [] => some ⟨negative, whole ++ fraction, fraction.length, 0, !hasPoint⟩
    | c :: tail =>
      if c == 'e' || c == 'E' then
        (exponentDigits? tail).map fun e =>
          ⟨negative, whole ++ fraction, fraction.length, e, false⟩
      else none

def DecimalText.toInt (d : DecimalText) : Int :=
  if d.negative then -(digitsValue d.digits : Int) else digitsValue d.digits

/-- Digits behind a sign, or without one, write a whole number. -/
theorem DecimalText.read?_signed {negative : Bool} {text cs : List Char}
    (hsign : takeSign text = (negative, cs)) (hne : cs ≠ []) (hcs : ∀ c ∈ cs, isAsciiDigit c) :
    read? text = some ⟨negative, cs, 0, 0, true⟩ := by
  have hdigits : ∀ c ∈ cs, isDigit c = true := fun c hc => isDigit_of_ascii (hcs c hc)
  have hrest : (cs ++ []).dropWhile isDigit = [] := List.dropWhile_append_of_pos hdigits
  have hwhole : (cs ++ []).takeWhile isDigit = cs ++ [] := List.takeWhile_append_of_pos hdigits
  rw [List.append_nil] at hrest hwhole
  obtain ⟨c, rest, rfl⟩ := List.exists_cons_of_ne_nil hne
  unfold read?
  rw [hsign]
  dsimp only
  rw [hwhole, hrest]
  simp

/-- Digits alone write a whole number. -/
theorem DecimalText.read?_digits {cs : List Char} (hne : cs ≠ [])
    (hcs : ∀ c ∈ cs, isAsciiDigit c) : read? cs = some ⟨false, cs, 0, 0, true⟩ := by
  refine read?_signed ?_ hne hcs
  have notSign : ∀ c ∈ cs, c ≠ '-' ∧ c ≠ '+' := fun c hc =>
    ⟨ne_of_kind (hcs c hc) (by decide), ne_of_kind (hcs c hc) (by decide)⟩
  unfold takeSign
  split
  · exact absurd rfl (notSign _ List.mem_cons_self).1
  · exact absurd rfl (notSign _ List.mem_cons_self).2
  · rfl

/-- The double nearest to the number that is written. -/
def DecimalText.toFloat (d : DecimalText) : Float :=
  ofDecimal d.negative (digitsValue d.digits) (d.exponent - d.places)

theorem isAsciiDigit_of_mem_digitsOf {n : Nat} {c : Char} (hc : c ∈ digitsOf n) :
    isAsciiDigit c = true := by
  have hdigit : c.isDigit = true := Nat.isDigit_of_mem_toDigits (by decide) (by decide) hc
  have h : 48 ≤ c.val ∧ c.val ≤ 57 := by simpa [Char.isDigit] using hdigit
  exact decide_eq_true h

/-- Only the digits of zero start with a zero. -/
theorem eq_zero_of_digitsOf {n : Nat} {rest : List Char} (h : digitsOf n = '0' :: rest) : n = 0 := by
  induction n using Nat.strongRecOn generalizing rest with
  | _ n ih =>
    unfold digitsOf at h
    by_cases hn : n < 10
    · rw [Nat.toDigits_of_lt_base hn] at h
      have all : ∀ n < 10, Nat.digitChar n = '0' → n = 0 := by decide
      exact all n hn (List.cons.inj h).1
    · rw [Nat.toDigits_of_base_le (by decide) (by omega)] at h
      obtain ⟨c, cs, hcs⟩ := List.exists_cons_of_ne_nil (Nat.toDigits_ne_nil (b := 10) (n := n / 10))
      rw [hcs] at h
      rw [(List.cons.inj h).1] at hcs
      have := ih (n / 10) (by omega) hcs
      omega

/-- The digits of a number write that number. -/
theorem digitsValue_digitsOf (n : Nat) : digitsValue (digitsOf n) = n := by
  unfold digitsValue
  rw [foldl_digitValue (fun c hc => isAsciiDigit_of_mem_digitsOf hc) 0]
  exact Nat.ofDigitChars_toDigits (by decide) (by decide)

/-- At least one digit, single underscores between them; the underscores are dropped. -/
def groupedDigits? (isDigit : Char → Bool) : List Char → Option (List Char)
  | [] => none
  | [c] => if isDigit c then some [c] else none
  | c :: '_' :: rest => if isDigit c then (groupedDigits? isDigit rest).map (c :: ·) else none
  | c :: rest => if isDigit c then (groupedDigits? isDigit rest).map (c :: ·) else none

/-- The whole number that a text writes to its end, white space around it aside. -/
def wholeNumber? (cs : List Char) : Option Int :=
  let (negative, body) := takeSign (trimChars cs)
  (groupedDigits? isDigit body).bind fun digits =>
    if digits.length ≤ maxDigits then
      some (if negative then -(digitsValue digits : Int) else digitsValue digits)
    else none

end Spreadsheet.Numeral
