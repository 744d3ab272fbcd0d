/-!
# Doubles as exact numbers

A double is zero, infinite, not a number, or a sign and `m · 2 ^ e` for whole numbers `m` and `e`.
`decode` gives that reading of its bits; `nearest` goes back: it rounds a quotient of natural
numbers to the nearest double, a tie to the even one. Integers, quotients of integers and decimal
text all become doubles through `nearest`, so that none of them is rounded twice.
-/

namespace Spreadsheet.Numeral

/-- What a double stands for. -/
inductive Decoded
  | nan
  | infinite (negative : Bool)
  /-- The number `m · 2 ^ e`, negated where `negative` holds. -/
  | finite (negative : Bool) (m : Nat) (e : Int)

/-- The lowest bit above the fraction of a double. -/
def hiddenBit : Nat := 0x10000000000000

def signBit : Nat := 0x8000000000000000

def infinityBits : Nat := 2047 * hiddenBit

/-- Half a unit in the last place of the largest doubles, as a power of two. -/
@[irreducible]
def halfUnitExponent : Nat := 970

/-- The least whole number that rounds beyond the largest double, from half a unit above it: there
the even neighbour is the one beyond. -/
def doubleLimit : Nat := (Nat.pow 2 54 - 1) * Nat.pow 2 halfUnitExponent

/-- The reading of a double's bits. -/
def decode (x : Float) : Decoded :=
  let bits := x.toBits.toNat
  let negative := bits / signBit == 1
  let exponent : Nat := bits / hiddenBit % 2048
  let fraction := bits % hiddenBit
  if exponent = 2047 then
    if fraction = 0 then .infinite negative else .nan
  else if exponent = 0 then .finite negative fraction (-1074)
  else .finite negative (hiddenBit + fraction) ((exponent : Int) - 1075)

def isNaN (x : Float) : Bool :=
  match decode x with
  | .nan => true
  | _ => false

/-- Nearest natural number to `n / d`; a half goes to the even neighbour. -/
def roundQuotient (n d : Nat) : Nat :=
  let q := n / d
  let r := n % d
  if 2 * r < d then q
  else if 2 * r > d then q + 1
  else if q % 2 = 0 then q else q + 1

/-- The quotient `n · 2 ^ k / d` as a pair of natural numbers. -/
def scaleBinary (n d : Nat) (k : Int) : Nat × Nat :=
  if 0 ≤ k then (n <<< k.toNat, d) else (n, d <<< (-k).toNat)

/-- Unit in the last place, as a power of two, of the doubles around `n / d`. -/
def unitExponent (n d : Nat) : Int :=
  let e : Int := n.log2 - d.log2 - 53
  let (a, b) := scaleBinary n d (-e)
  max (if b * (2 * hiddenBit) ≤ a then e + 1 else e) (-1074)

/-- The bits of the double nearest to `n / d`, or `none` beyond the largest double. -/
def nearestBits (n d : Nat) : Option Nat :=
  if n = 0 then some 0
  else
    let e := unitExponent n d
    let (a, b) := scaleBinary n d (-e)
    let bits := (e + 1074).toNat * hiddenBit + roundQuotient a b
    if bits < infinityBits then some bits else none

/-- Puts a sign on the bits of a magnitude. -/
def withSign (negative : Bool) (bits : Nat) : Float :=
  Float.ofBits (UInt64.ofNat (if negative then signBit + bits else bits))

/-- Nearest double to `n / d`, negated where asked; `none` beyond the largest double. -/
def nearest (negative : Bool) (n d : Nat) : Option Float :=
  (nearestBits n d).map (withSign negative)

/-- Nearest double to a whole number; `none` beyond the largest double. -/
def ofInt? (n : Int) : Option Float := nearest (n < 0) n.natAbs 1

/-- Nearest double to a quotient of whole numbers; `none` beyond the largest double. -/
def ofQuotient? (a b : Int) : Option Float :=
  nearest (decide (a < 0) != decide (b < 0)) a.natAbs b.natAbs

/-- Nearest double to `digits · 10 ^ exponent`, negated where asked. Numbers beyond the largest
double give infinity. An exponent far outside the range of doubles decides alone. -/
def ofDecimal (negative : Bool) (digits : Nat) (exponent : Int) : Float :=
  if digits = 0 then withSign negative 0
  else if exponent > 400 then withSign negative infinityBits
  else if exponent < -(digits.log2 + 400 : Int) then withSign negative 0
  else
    let bits :=
      if 0 ≤ exponent then nearestBits (digits * Nat.pow 10 exponent.toNat) 1
      else nearestBits digits (Nat.pow 10 (-exponent).toNat)
    withSign negative (bits.getD infinityBits)

/-- Whole part of a finite double, toward zero. -/
def truncate? (x : Float) : Option Int :=
  match decode x with
  | .finite negative m e =>
    let (a, b) := scaleBinary m 1 e
    let whole : Int := (a / b : Nat)
    some (if negative then -whole else whole)
  | _ => none

def isWhole (x : Float) : Bool :=
  match decode x with
  | .finite _ m e =>
    let (a, b) := scaleBinary m 1 e
    a % b == 0
  | _ => false

end Spreadsheet.Numeral
