/-!
# Decimal digits

Row numbers and numeric text may be written in the decimal digits of any script. In every script
the ten digits are consecutive code points, so a list of the zeros gives them all.
-/

namespace Spreadsheet.Text

/-- The code points of the zeros of all scripts with decimal digits. -/
def zeroCodes : List Nat :=
  [0x30, 0x660, 0x6f0, 0x7c0, 0x966, 0x9e6, 0xa66, 0xae6, 0xb66, 0xbe6, 0xc66, 0xce6, 0xd66,
   0xde6, 0xe50, 0xed0, 0xf20, 0x1040, 0x1090, 0x17e0, 0x1810, 0x1946, 0x19d0, 0x1a80, 0x1a90,
   0x1b50, 0x1bb0, 0x1c40, 0x1c50, 0xa620, 0xa8d0, 0xa900, 0xa9d0, 0xa9f0, 0xaa50, 0xabf0, 0xff10,
   0x104a0, 0x10d30, 0x11066, 0x110f0, 0x11136, 0x111d0, 0x112f0, 0x11450, 0x114d0, 0x11650,
   0x116c0, 0x11730, 0x118e0, 0x11950, 0x11c50, 0x11d50, 0x11da0, 0x16a60, 0x16ac0, 0x16b50,
   0x1d7ce, 0x1d7d8, 0x1d7e2, 0x1d7ec, 0x1d7f6, 0x1e140, 0x1e2f0, 0x1e950, 0x1fbf0]

/-- The value of a decimal digit of any script. -/
def digitValue? (c : Char) : Option Nat :=
  if c.toNat < 0x80 then
    if '0' ≤ c ∧ c ≤ '9' then some (c.toNat - 0x30) else none
  else
    (zeroCodes.find? fun z => decide (z ≤ c.toNat ∧ c.toNat < z + 10)).map (c.toNat - ·)

/-- A decimal digit of any script. -/
def isDigit (c : Char) : Bool := (digitValue? c).isSome

def isAsciiDigit (c : Char) : Bool := decide ('0' ≤ c ∧ c ≤ '9')

/-- A character of some kind is no character of another kind. -/
theorem ne_of_kind {p : Char → Bool} {c d : Char} (hc : p c = true) (hd : p d = false) :
    c ≠ d := by
  rintro rfl
  rw [hc] at hd
  cases hd

/-- What holds of every character of a closed list is found by looking at each of them. -/
theorem forall_mem_of_all {p : Char → Prop} [DecidablePred p] {cs : List Char}
    (h : (cs.all fun c => decide (p c)) = true) : ∀ c ∈ cs, p c :=
  fun c hc => of_decide_eq_true (List.all_eq_true.1 h c hc)

/-- What holds of the characters of the first 128 codes holds of every character of ASCII. -/
@[elab_as_elim]
theorem forall_ascii {P : Char → Prop} {c : Char} (hc : c.toNat < 128)
    (h : ∀ n < 128, P (Char.ofNat n)) : P c := by
  have hat := h c.toNat hc
  rw [Char.ofNat_toNat] at hat
  exact hat

theorem digitValue?_of_ascii {c : Char} (hc : isAsciiDigit c = true) :
    digitValue? c = some (c.toNat - 0x30) := by
  have h : '0' ≤ c ∧ c ≤ '9' := of_decide_eq_true hc
  have hlast : c.toNat ≤ 57 := h.2
  unfold digitValue?
  rw [if_pos (by omega), if_pos h]

theorem isDigit_of_ascii {c : Char} (hc : isAsciiDigit c = true) : isDigit c = true := by
  unfold isDigit
  rw [digitValue?_of_ascii hc]
  rfl

def isAsciiLetter (c : Char) : Bool := decide ('a' ≤ c ∧ c ≤ 'z' ∨ 'A' ≤ c ∧ c ≤ 'Z')

def hexValue? (c : Char) : Option Nat :=
  if '0' ≤ c ∧ c ≤ '9' then some (c.toNat - '0'.toNat)
  else if 'a' ≤ c ∧ c ≤ 'f' then some (c.toNat - 'a'.toNat + 10)
  else if 'A' ≤ c ∧ c ≤ 'F' then some (c.toNat - 'A'.toNat + 10)
  else none

/-- The number that hexadecimal digits write, most significant first. -/
def hexNumber? (cs : List Char) : Option Nat :=
  cs.foldl (fun n c => do return (← n) * 16 + (← hexValue? c)) (some 0)

/-- The number that the digits write, most significant first; other characters count as zero. -/
def digitsValue (cs : List Char) : Nat :=
  cs.foldl (fun n c => n * 10 + (digitValue? c).getD 0) 0

theorem foldl_digitValue {cs : List Char} (hcs : ∀ c ∈ cs, isAsciiDigit c) : ∀ n,
    cs.foldl (fun n c => n * 10 + (digitValue? c).getD 0) n = Nat.ofDigitChars 10 cs n := by
  induction cs with
  | nil => exact fun n => Nat.ofDigitChars_nil.symm
  | cons c rest ih =>
    intro n
    rw [List.foldl_cons, Nat.ofDigitChars_cons, digitValue?_of_ascii (hcs c List.mem_cons_self),
      ih fun d hd => hcs d (List.mem_cons_of_mem _ hd), Nat.mul_comm n]
    rfl

end Spreadsheet.Text
