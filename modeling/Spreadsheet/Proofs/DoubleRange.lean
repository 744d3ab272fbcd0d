import Mathlib
import Spreadsheet.Value.Number

/-!
# The range of doubles

Rounding a quotient to the nearest double fails exactly when the quotient is at least `doubleLimit`,
`2 ^ 1024 - 2 ^ 970` (`nearestBits_eq_none_iff`). The unit in the last place is taken such that the
quotient has between `2 ^ 52` and `2 ^ 53` of it (`unitExponent_spec`), so only the unit `2 ^ 971`
needs a closer look: there the quotient must not round up to `2 ^ 53` units.
-/

namespace Spreadsheet.Numeral

/-! ## Rounding a quotient -/

/-- A quotient is rounded to the nearer one of the two whole numbers around it, from the middle to the
even one. -/
theorem roundQuotient_spec (n d : Nat) :
    (roundQuotient n d = n / d ∧ 2 * (n % d) ≤ d ∨
      roundQuotient n d = n / d + 1 ∧ d ≤ 2 * (n % d)) ∧
    (2 * (n % d) = d → roundQuotient n d % 2 = 0) := by
  unfold roundQuotient
  dsimp only
  split
  · omega
  · split
    · omega
    · split <;> omega

theorem roundQuotient_le {n d m : Nat} (h : n < m * d) : roundQuotient n d ≤ m := by
  have hq : n / d < m := Nat.div_lt_of_lt_mul (by rwa [Nat.mul_comm] at h)
  have hround := (roundQuotient_spec n d).1
  omega

theorem le_roundQuotient {n d m : Nat} (hd : 0 < d) (h : m * d ≤ n) : m ≤ roundQuotient n d := by
  have hq : m ≤ n / d := (Nat.le_div_iff_mul_le hd).2 h
  have hround := (roundQuotient_spec n d).1
  omega

/-- Below an even number of units the quotient rounds up to it from half a unit before. -/
theorem roundQuotient_eq_iff {n d m : Nat} (hd : 0 < d) (hm : m % 2 = 0) (h : n < m * d) :
    roundQuotient n d = m ↔ (2 * m - 1) * d ≤ 2 * n := by
  have hq : n / d < m := Nat.div_lt_of_lt_mul (by rwa [Nat.mul_comm] at h)
  have hr : n % d < d := Nat.mod_lt n hd
  have hn : d * (n / d) + n % d = n := Nat.div_add_mod n d
  have hpos : m ≠ 0 := by
    rintro rfl
    simp at h
  obtain ⟨k, rfl⟩ : ∃ k, m = k + 1 := ⟨m - 1, by omega⟩
  have hdouble : (2 * (k + 1) - 1) * d = 2 * (d * k) + d := by
    rw [show 2 * (k + 1) - 1 = 2 * k + 1 by omega]
    ring
  obtain ⟨hround, heven⟩ := roundQuotient_spec n d
  rw [hdouble]
  constructor
  · intro heq
    have htop : n / d = k ∧ d ≤ 2 * (n % d) := by omega
    rw [htop.1] at hn
    omega
  · intro hle
    have htop : n / d = k := by
      by_contra hne
      have hlow : n / d + 1 ≤ k := by omega
      have := Nat.mul_le_mul_left d hlow
      rw [Nat.mul_add, Nat.mul_one] at this
      omega
    rw [htop] at hn
    omega

/-! ## The unit in the last place -/

theorem scaleBinary_eq (n d : Nat) (k : Int) :
    scaleBinary n d k = (n * 2 ^ k.toNat, d * 2 ^ (-k).toNat) := by
  unfold scaleBinary
  split
  · have hk : (-k).toNat = 0 := by omega
    rw [hk, Nat.shiftLeft_eq, Nat.pow_zero, Nat.mul_one]
  · have hk : k.toNat = 0 := by omega
    rw [hk, Nat.shiftLeft_eq, Nat.pow_zero, Nat.mul_one]

/-- By its length in bits a quotient has less than `2 ^ 53` of a unit that is large enough. -/
theorem lt_units {n d : Nat} (hd : 0 < d) {e : Int} (he : (n.log2 : Int) - d.log2 - 52 ≤ e) :
    n * 2 ^ (-e).toNat < 2 ^ 53 * (d * 2 ^ e.toNat) :=
  calc n * 2 ^ (-e).toNat
      < 2 ^ (n.log2 + 1) * 2 ^ (-e).toNat :=
        Nat.mul_lt_mul_of_pos_right Nat.lt_log2_self (Nat.two_pow_pos _)
    _ = 2 ^ (n.log2 + 1 + (-e).toNat) := (Nat.pow_add ..).symm
    _ ≤ 2 ^ (53 + (d.log2 + e.toNat)) := Nat.pow_le_pow_right Nat.two_pos (by omega)
    _ = 2 ^ 53 * (2 ^ d.log2 * 2 ^ e.toNat) := by rw [Nat.pow_add, Nat.pow_add]
    _ ≤ 2 ^ 53 * (d * 2 ^ e.toNat) :=
        Nat.mul_le_mul_left _ (Nat.mul_le_mul_right _ (Nat.log2_self_le hd.ne'))

/-- By its length in bits a quotient has at least `2 ^ 52` of a unit that is small enough. -/
theorem units_le {n d : Nat} (hn : 0 < n) {e : Int} (he : e ≤ (n.log2 : Int) - d.log2 - 53) :
    2 ^ 52 * (d * 2 ^ e.toNat) ≤ n * 2 ^ (-e).toNat :=
  calc 2 ^ 52 * (d * 2 ^ e.toNat)
      ≤ 2 ^ 52 * (2 ^ (d.log2 + 1) * 2 ^ e.toNat) :=
        Nat.mul_le_mul_left _ (Nat.mul_le_mul_right _ Nat.lt_log2_self.le)
    _ = 2 ^ (52 + (d.log2 + 1 + e.toNat)) := by rw [Nat.pow_add 2 52, Nat.pow_add 2 (d.log2 + 1)]
    _ ≤ 2 ^ (n.log2 + (-e).toNat) := Nat.pow_le_pow_right Nat.two_pos (by omega)
    _ = 2 ^ n.log2 * 2 ^ (-e).toNat := Nat.pow_add ..
    _ ≤ n * 2 ^ (-e).toNat := Nat.mul_le_mul_right _ (Nat.log2_self_le hn.ne')

/-- Of a unit twice as large a quotient has half as much. -/
theorem units_half {n d m : Nat} {e : Int} (h : 2 * m * (d * 2 ^ e.toNat) ≤ n * 2 ^ (-e).toNat) :
    m * (d * 2 ^ (e + 1).toNat) ≤ n * 2 ^ (-(e + 1)).toNat := by
  obtain he | he := le_or_gt 0 e
  · have hup : (e + 1).toNat = e.toNat + 1 := by omega
    have hzero : (-(e + 1)).toNat = (-e).toNat := by omega
    rw [hup, hzero, Nat.pow_succ]
    calc m * (d * (2 ^ e.toNat * 2)) = 2 * m * (d * 2 ^ e.toNat) := by ring
      _ ≤ n * 2 ^ (-e).toNat := h
  · have hup : (e + 1).toNat = e.toNat := by omega
    have hdown : (-e).toNat = (-(e + 1)).toNat + 1 := by omega
    rw [hdown, Nat.pow_succ] at h
    rw [hup]
    refine Nat.le_of_mul_le_mul_left ?_ Nat.two_pos
    calc 2 * (m * (d * 2 ^ e.toNat)) = 2 * m * (d * 2 ^ e.toNat) := by ring
      _ ≤ n * (2 ^ (-(e + 1)).toNat * 2) := h
      _ = 2 * (n * 2 ^ (-(e + 1)).toNat) := by ring

/-- A quotient has less than `2 ^ 53` of its units, and at least `2 ^ 52` unless the unit is the
smallest one. -/
theorem unitExponent_spec {n d : Nat} (hn : 0 < n) (hd : 0 < d) :
    -1074 ≤ unitExponent n d ∧
    n * 2 ^ (-unitExponent n d).toNat < 2 ^ 53 * (d * 2 ^ (unitExponent n d).toNat) ∧
    (-1074 < unitExponent n d →
      2 ^ 52 * (d * 2 ^ (unitExponent n d).toNat) ≤ n * 2 ^ (-unitExponent n d).toNat) := by
  have smallest : (n.log2 : Int) - d.log2 - 52 ≤ -1074 → -1074 ≤ (-1074 : Int) ∧
      n * 2 ^ (-(-1074 : Int)).toNat < 2 ^ 53 * (d * 2 ^ (-1074 : Int).toNat) ∧
      ((-1074 : Int) < -1074 →
        2 ^ 52 * (d * 2 ^ (-1074 : Int).toNat) ≤ n * 2 ^ (-(-1074 : Int)).toNat) :=
    fun h => ⟨le_refl _, lt_units hd h, fun h => absurd h (lt_irrefl _)⟩
  unfold unitExponent hiddenBit
  dsimp only
  rw [scaleBinary_eq, Int.neg_neg]
  dsimp only
  split
  · next htest =>
    obtain he | he := le_or_gt (-1074) ((n.log2 : Int) - d.log2 - 53 + 1)
    · rw [max_eq_left he]
      refine ⟨he, lt_units hd (by omega), fun _ => units_half ?_⟩
      rw [Nat.mul_comm]
      exact htest
    · rw [max_eq_right he.le]
      exact smallest (by omega)
  · next htest =>
    obtain he | he := le_or_gt (-1074) ((n.log2 : Int) - d.log2 - 53)
    · rw [max_eq_left he]
      refine ⟨he, ?_, fun _ => units_le hn (le_refl _)⟩
      rw [Nat.mul_comm (2 ^ 53)]
      exact Nat.lt_of_not_le htest
    · rw [max_eq_right he.le]
      exact smallest (by omega)

/-! ## Beyond the largest double -/

/-- The units in the last place that a quotient has, rounded. -/
def roundedUnits (n d : Nat) : Nat :=
  roundQuotient (n * 2 ^ (-unitExponent n d).toNat) (d * 2 ^ (unitExponent n d).toNat)

theorem bits_eq (n d : Nat) (e : Int) :
    (match scaleBinary n d (-e) with
      | (a, b) =>
        let bits := (e + 1074).toNat * hiddenBit + roundQuotient a b
        if bits < infinityBits then some bits else none) =
    if (e + 1074).toNat * hiddenBit + roundQuotient (n * 2 ^ (-e).toNat) (d * 2 ^ e.toNat) <
        infinityBits
    then some ((e + 1074).toNat * hiddenBit + roundQuotient (n * 2 ^ (-e).toNat) (d * 2 ^ e.toNat))
    else none := by
  have hscale := scaleBinary_eq n d (-e)
  rw [Int.neg_neg] at hscale
  rw [hscale]

/-- The bits of the nearest double: a count of the unit, and below it the units, rounded. -/
theorem nearestBits_eq {n : Nat} (hn : 0 < n) (d : Nat) : nearestBits n d =
    if (unitExponent n d + 1074).toNat * hiddenBit + roundedUnits n d < infinityBits
    then some ((unitExponent n d + 1074).toNat * hiddenBit + roundedUnits n d) else none := by
  unfold nearestBits
  rw [if_neg hn.ne']
  exact bits_eq n d (unitExponent n d)

theorem doubleLimit_eq : doubleLimit = (2 ^ 54 - 1) * 2 ^ halfUnitExponent := rfl

theorem halfUnitExponent_eq : halfUnitExponent = 970 := by
  unfold halfUnitExponent
  rfl

/-- Counted in the unit `2 ^ e` a quotient is beyond the largest double exactly when it is at least
the limit. -/
theorem bits_beyond_iff {n d : Nat} {e : Int} (hd : 0 < d) (hlow : -1074 ≤ e)
    (hlt : n * 2 ^ (-e).toNat < 2 ^ 53 * (d * 2 ^ e.toNat))
    (hle : -1074 < e → 2 ^ 52 * (d * 2 ^ e.toNat) ≤ n * 2 ^ (-e).toNat) :
    infinityBits ≤ (e + 1074).toNat * hiddenBit +
      roundQuotient (n * 2 ^ (-e).toNat) (d * 2 ^ e.toNat) ↔ doubleLimit * d ≤ n := by
  have hround := roundQuotient_le hlt
  have hunit : 0 < d * 2 ^ e.toNat := Nat.mul_pos hd (Nat.two_pow_pos _)
  have hlimit : doubleLimit * d = (2 ^ 54 - 1) * (d * 2 ^ halfUnitExponent) := by
    rw [doubleLimit_eq, Nat.mul_assoc, Nat.mul_comm d]
  have hpos : 0 < d * 2 ^ halfUnitExponent := Nat.mul_pos hd (Nat.two_pow_pos _)
  have htop := halfUnitExponent_eq
  rw [hlimit]
  unfold infinityBits hiddenBit
  obtain he | he | he : e ≤ 970 ∨ e = 971 ∨ 972 ≤ e := by omega
  · -- Below the largest unit nothing is beyond.
    have hsmall : d * 2 ^ e.toNat ≤ d * 2 ^ halfUnitExponent :=
      Nat.mul_le_mul_left _ (Nat.pow_le_pow_right Nat.two_pos (by omega))
    have hn_le : n ≤ n * 2 ^ (-e).toNat := Nat.le_mul_of_pos_right _ (Nat.two_pow_pos _)
    refine ⟨fun h => ?_, fun h => ?_⟩ <;> omega
  · -- The largest unit: beyond is what rounds up to its next power of two.
    have hzero : (-e).toNat = 0 := by omega
    have hunits : e.toNat = halfUnitExponent + 1 := by omega
    have hbits : (e + 1074).toNat = 2045 := by omega
    have htwice : d * 2 ^ e.toNat = d * 2 ^ halfUnitExponent * 2 := by
      rw [hunits, Nat.pow_succ, Nat.mul_assoc]
    rw [htwice, hzero, Nat.pow_zero, Nat.mul_one] at hlt hround
    rw [htwice, hzero, hbits, Nat.pow_zero, Nat.mul_one]
    have hiff := roundQuotient_eq_iff (by omega) (by omega) hlt
    refine ⟨fun h => ?_, fun h => ?_⟩
    · have := hiff.1 (by omega)
      omega
    · have := hiff.2 (by omega)
      omega
  · -- Above the largest unit everything is beyond.
    have hlarge : d * 2 ^ (halfUnitExponent + 2) ≤ d * 2 ^ e.toNat :=
      Nat.mul_le_mul_left _ (Nat.pow_le_pow_right Nat.two_pos (by omega))
    rw [Nat.pow_add, ← Nat.mul_assoc] at hlarge
    have hzero : (-e).toNat = 0 := by omega
    have hle' := hle (by omega)
    have hge := le_roundQuotient hunit hle'
    rw [hzero, Nat.pow_zero, Nat.mul_one] at hle' hge
    rw [hzero, Nat.pow_zero, Nat.mul_one]
    refine ⟨fun _ => ?_, fun _ => ?_⟩ <;> omega

/-- A quotient is beyond the largest double exactly when it is at least the limit. -/
theorem nearestBits_eq_none_iff {n d : Nat} (hd : 0 < d) :
    nearestBits n d = none ↔ doubleLimit * d ≤ n := by
  obtain rfl | hn := Nat.eq_zero_or_pos n
  · have hpos : 0 < doubleLimit * d :=
      Nat.mul_pos (Nat.mul_pos (by decide) (Nat.two_pow_pos _)) hd
    exact ⟨fun h => absurd h (Option.some_ne_none _), fun h => absurd hpos (Nat.not_lt_of_le h)⟩
  · obtain ⟨hlow, hlt, hle⟩ := unitExponent_spec hn hd
    rw [nearestBits_eq hn, ite_eq_right_iff, ← bits_beyond_iff hd hlow hlt hle, ← Nat.not_lt]
    exact ⟨fun h hfinite => Option.some_ne_none _ (h hfinite), fun h hfinite => absurd hfinite h⟩

/-! ## Whole numbers -/

theorem le_doubleLimit : 2 ^ 54 - 1 ≤ doubleLimit :=
  Nat.le_mul_of_pos_right _ (Nat.two_pow_pos _)

/-- A whole number is no double exactly from the limit on. -/
theorem ofInt?_eq_none_iff (n : Int) : ofInt? n = none ↔ doubleLimit ≤ n.natAbs := by
  unfold ofInt? nearest
  rw [Option.map_eq_none_iff, nearestBits_eq_none_iff Nat.one_pos, Nat.mul_one]

/-- A quotient of whole numbers is no double exactly from the limit on. -/
theorem ofQuotient?_eq_none_iff (a : Int) {b : Int} (hb : b ≠ 0) :
    ofQuotient? a b = none ↔ doubleLimit * b.natAbs ≤ a.natAbs := by
  unfold ofQuotient? nearest
  rw [Option.map_eq_none_iff, nearestBits_eq_none_iff (Int.natAbs_pos.2 hb)]

/-- Whole numbers within the range of doubles can be written in full. -/
theorem length_digitsOf_le {n : Nat} (h : n < doubleLimit) : (digitsOf n).length ≤ maxDigits := by
  refine Nat.toDigits_length 10 n maxDigits (by decide) ?_
  have htop : 54 + halfUnitExponent ≤ maxDigits := by
    rw [halfUnitExponent_eq]
    decide
  rw [doubleLimit_eq] at h
  calc n < (2 ^ 54 - 1) * 2 ^ halfUnitExponent := h
    _ ≤ 2 ^ 54 * 2 ^ halfUnitExponent := Nat.mul_le_mul_right _ (Nat.sub_le ..)
    _ = 2 ^ (54 + halfUnitExponent) := (Nat.pow_add ..).symm
    _ ≤ 2 ^ maxDigits := Nat.pow_le_pow_right Nat.two_pos htop
    _ ≤ 10 ^ maxDigits := Nat.pow_le_pow_left (by decide) _

end Spreadsheet.Numeral
