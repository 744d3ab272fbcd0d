import Spreadsheet.Numeral.Binary64

/-!
# Decimal text of numbers

Doubles are written from their exact value: with a fixed number of places (`fixed`), with a given
number of significant digits (`significant`), or with the fewest digits that read back as the same
double (`shortest`). A half goes to the even neighbour. Whole numbers are written in full, up to
a limit on the count of digits.
-/

namespace Spreadsheet.Numeral

/-- Digits of a natural number, most significant first. -/
def digitsOf (n : Nat) : List Char := Nat.toDigits 10 n

/-- Most digits that a whole number may have in text, read or written. -/
def maxDigits : Nat := 4300

/-- Decimal text of a whole number; `none` above the limit on digits. -/
def integerText? (n : Int) : Option String :=
  let digits := digitsOf n.natAbs
  if digits.length ≤ maxDigits then
    some (String.ofList (if n < 0 then '-' :: digits else digits))
  else none

/-- Cuts digits into groups of three from the right, with commas between. -/
def groupThousands (digits : List Char) : List Char :=
  let rec go : Nat → List Char → List Char
    | _, [] => []
    | k, c :: rest => if k % 3 = 0 ∧ 0 < k then ',' :: c :: go (k + 1) rest else c :: go (k + 1) rest
  (go 0 digits.reverse).reverse

/-- The digits, with zeros in front up to the given length. -/
def padZeros (width : Nat) (digits : List Char) : List Char :=
  List.replicate (width - digits.length) '0' ++ digits

/-- The value `m · 2 ^ e · 10 ^ places`, rounded to a natural number. -/
def scaledDigits (m : Nat) (e : Int) (places : Int) : Nat :=
  let (a, b) := scaleBinary m 1 e
  if 0 ≤ places then roundQuotient (a * Nat.pow 10 places.toNat) b
  else roundQuotient a (b * Nat.pow 10 (-places).toNat)

/-- Text of `q / 10 ^ places`; the whole part is grouped where asked. -/
def placesText (q places : Nat) (grouped : Bool) : List Char :=
  let digits := padZeros (places + 1) (digitsOf q)
  let whole := digits.take (digits.length - places)
  let fraction := digits.drop (digits.length - places)
  (if grouped then groupThousands whole else whole) ++
    (if places = 0 then [] else '.' :: fraction)

def nonFiniteText (negative : Bool) (name : String) : String :=
  if negative then "-" ++ name else name

/-- Text with a fixed number of places. -/
def fixed (x : Float) (places : Nat) (grouped : Bool) : String :=
  match decode x with
  | .nan => "nan"
  | .infinite negative => nonFiniteText negative "inf"
  | .finite negative m e =>
    let body := placesText (scaledDigits m e places) places grouped
    String.ofList (if negative then '-' :: body else body)

/-- Decimal exponent of the leading digit of `m · 2 ^ e`, for `m` other than zero. Doubles are at
least `10 ^ (-400)`, so scaling by `10 ^ 400` leaves the leading digit in the whole part. -/
def leadingExponent (m : Nat) (e : Int) : Int :=
  let (a, b) := scaleBinary m 1 e
  ((digitsOf (a * Nat.pow 10 400 / b)).length : Int) - 401

def dropTrailingZeros (digits : List Char) : List Char :=
  (digits.reverse.dropWhile (· == '0')).reverse

/-- Exponent with its sign and at least two digits. -/
def exponentText (e : Int) : List Char :=
  'e' :: (if e < 0 then '-' else '+') :: padZeros 2 (digitsOf e.natAbs)

/-- Where the decimal point of some digits goes. -/
structure Layout where
  /-- Exponents of the leading digit from here on are written without an exponent … -/
  lowest : Int
  /-- … up to here, exclusively. -/
  highest : Int
  /-- A whole number keeps a point and a zero. -/
  pointZero : Bool

/-- Text of the significant digits, the first of which stands for `10 ^ e`. -/
def Layout.text (layout : Layout) (digits : List Char) (e : Int) : List Char :=
  if layout.lowest ≤ e ∧ e < layout.highest then
    if e < 0 then
      '0' :: '.' :: List.replicate (-e - 1).toNat '0' ++ digits
    else
      let width := e.toNat + 1
      let whole := digits.take width ++ List.replicate (width - digits.length) '0'
      let fraction := digits.drop width
      if fraction.isEmpty then (if layout.pointZero then whole ++ ['.', '0'] else whole)
      else whole ++ '.' :: fraction
  else
    match digits with
    | [] => exponentText e
    | [d] => d :: exponentText e
    | d :: rest => d :: '.' :: rest ++ exponentText e

/-- Plain display: ten significant digits, no exponent from `10 ^ (-4)` up to `10 ^ 10`. -/
def displayLayout : Layout := ⟨-4, 10, false⟩

/-- Exact display: no exponent from `10 ^ (-4)` up to `10 ^ 16`, and `.0` after a whole number. -/
def exactLayout : Layout := ⟨-4, 16, true⟩

/-- Digits and leading exponent of `m · 2 ^ e` rounded to `count` significant digits. -/
def roundedDigits (m : Nat) (e : Int) (count : Nat) : List Char × Int :=
  let lead := leadingExponent m e
  let digits := digitsOf (scaledDigits m e (count - 1 - lead))
  if digits.length > count then (digits.take count, lead + 1) else (digits, lead)

/-- Text with at most `count` significant digits, without zeros at the end. -/
def significant (x : Float) (count : Nat) : String :=
  match decode x with
  | .nan => "nan"
  | .infinite negative => nonFiniteText negative "inf"
  | .finite negative m e =>
    let body :=
      if m = 0 then ['0']
      else
        let (digits, lead) := roundedDigits m e count
        displayLayout.text (dropTrailingZeros digits) lead
    String.ofList (if negative then '-' :: body else body)

/-- Bits of the double nearest to `q · 10 ^ (-places)`. -/
def readBack (q : Nat) (places : Int) : Option Nat :=
  if 0 ≤ places then nearestBits q (Nat.pow 10 places.toNat)
  else nearestBits (q * Nat.pow 10 (-places).toNat) 1

/-- The point nearest to `m · 2 ^ e` on the grid `10 ^ (-places)` among its two neighbours there
that read back as the double with the given bits. -/
def gridPoint? (bits m : Nat) (e places : Int) : Option Nat :=
  let (a, b) := scaleBinary m 1 e
  let (n, d) :=
    if 0 ≤ places then (a * Nat.pow 10 places.toNat, b) else (a, b * Nat.pow 10 (-places).toNat)
  let low := n / d
  let near := roundQuotient n d
  let far := if near = low then low + 1 else low
  if readBack near places = some bits then some near
  else if readBack far places = some bits then some far
  else none

/-- The first of the digit counts `count`, `count + 1`, … that has a point which reads back,
with that point and its number of places. -/
def shortestFrom (bits m : Nat) (e lead : Int) : Nat → Nat → Nat × Int
  | 0, count => (scaledDigits m e (count - 1 - lead), count - 1 - lead)
  | more + 1, count =>
    let places := (count : Int) - 1 - lead
    match gridPoint? bits m e places with
    | some q => (q, places)
    | none => shortestFrom bits m e lead more (count + 1)

/-- Text of a finite magnitude with the fewest digits that read back, the nearest of those. -/
def shortestMagnitude (m : Nat) (e : Int) (bits : Nat) : List Char :=
  if m = 0 then exactLayout.text ['0'] 0
  else
    let (q, places) := shortestFrom bits m e (leadingExponent m e) 16 1
    let digits := digitsOf q
    exactLayout.text (dropTrailingZeros digits) (digits.length - 1 - places)

/-- Text with the fewest digits that read back as the same double. -/
def shortest (x : Float) : String :=
  match decode x with
  | .nan => "nan"
  | .infinite negative => nonFiniteText negative "inf"
  | .finite negative m e =>
    let body := shortestMagnitude m e (x.toBits.toNat % signBit)
    String.ofList (if negative then '-' :: body else body)

end Spreadsheet.Numeral
