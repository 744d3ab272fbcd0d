import Spreadsheet.Proofs.DoubleRange
import Spreadsheet.Proofs.NotNumber
import Spreadsheet.Proofs.NumberLine

/-!
# The nearest double

The bits of a double are those of its components (`pack_unpack`), so what rounding puts together is what
decoding takes apart (`exists_decode_units`). A double stands at a whole number below `2 ^ 53` times a
power of two (`IsDouble.exists_dyadic`). Such a number is a multiple of the unit in which a quotient is
rounded, or it is below all numbers that have this unit, so none is nearer to the quotient than its
units, rounded (`roundedUnits_nearest`). Rounding therefore gives the nearest double
(`isNearestDouble_of_nearest`), and a whole number for a whole number.
-/

namespace Spreadsheet.Numeral

open Float.Model Float.Model.UnpackedFloat

/-! ## Bits and components -/

theorem toBitVec_ofBitVec : ∀ b : BitVec 1, (Sign.ofBitVec b).toBitVec = b := by decide

theorem toNat_unpackSign (b : BitVec 64) :
    (@unpackSign Format.binary64 b).toNat = b.toNat / signBit % 2 := by
  rw [unpackSign_def, BitVec.extractLsb'_toNat, Nat.shiftRight_eq_div_pow]
  rfl

theorem toNat_packComponents (s : Sign) (e : BitVec 11) (m : BitVec 52) :
    (packComponents Format.binary64 s e m).toNat =
      s.toBitVec.toNat * signBit + e.toNat * hiddenBit + m.toNat := by
  change (s.toBitVec ++ e ++ m).toNat = _
  rw [BitVec.toNat_append, BitVec.toNat_append, ← Nat.shiftLeft_add_eq_or_of_lt m.isLt,
    ← Nat.shiftLeft_add_eq_or_of_lt e.isLt, Nat.shiftLeft_eq, Nat.shiftLeft_eq]
  unfold signBit hiddenBit
  omega

/-- Bits are those of their components. -/
theorem packComponents_unpack (b : BitVec Format.binary64.numBits) :
    packComponents Format.binary64 (Sign.ofBitVec (unpackSign b)) (unpackExponent b)
      (unpackMantissa b) = b := by
  have hb : b.toNat < 2 ^ 64 := b.isLt
  refine BitVec.eq_of_toNat_eq ?_
  have h := toNat_packComponents (Sign.ofBitVec (unpackSign b)) (unpackExponent b) (unpackMantissa b)
  rw [toBitVec_ofBitVec, toNat_unpackSign, toNat_unpackExponent, toNat_unpackMantissa] at h
  rw [h]
  unfold signBit hiddenBit
  omega

theorem log2_of_normal {m : Nat} (h : m < 2 ^ 52) : (2 ^ 52 + m).log2 = 52 := by
  rw [Nat.log2_eq_iff (by omega)]
  omega

/-- Packing puts the components of a normal number together. -/
theorem pack_normal (s : Sign) {e : BitVec 11} (m : BitVec 52) (he : e ≠ -1#11)
    (hm : 0 < (1#1 ++ m).toNat) :
    UnpackedFloat.pack Format.binary64 (.finite s (1#1 ++ m).toNat ((e.toNat : Int) - 1075) hm) =
      packComponents Format.binary64 s e m := by
  have hvalue : (1#1 ++ m).toNat = 2 ^ 52 + m.toNat := by
    rw [BitVec.toNat_append, ← Nat.shiftLeft_add_eq_or_of_lt m.isLt]
    rfl
  have hexponent : ((e.toNat : Int) - 1075 + 1023 + 52).toNat = e.toNat := by omega
  have hlow : ¬ 2 ^ 11 ≤ e.toNat + 1 := by
    intro h
    refine he (BitVec.eq_of_toNat_eq ?_)
    have hlt := e.isLt
    change e.toNat = 2047
    omega
  have hlog := log2_of_normal m.isLt
  rw [← hvalue] at hlog
  unfold UnpackedFloat.pack
  change (if 2 ^ 11 ≤ ((e.toNat : Int) - 1075 + 1023 + 52).toNat + 1 then _
    else if (1#1 ++ m).toNat.log2 + 1 = 53 then packComponents Format.binary64 s
      (BitVec.ofNat 11 ((e.toNat : Int) - 1075 + 1023 + 52).toNat)
      (BitVec.ofNat 52 (1#1 ++ m).toNat) else _) = _
  have hmantissa : BitVec.ofNat 52 (2 ^ 52 + m.toNat) = m := by
    refine BitVec.eq_of_toNat_eq ?_
    rw [BitVec.toNat_ofNat, Nat.add_mod_left, Nat.mod_eq_of_lt m.isLt]
  rw [hexponent, hlog, if_neg hlow, if_pos rfl, hvalue, hmantissa, BitVec.ofNat_toNat,
    BitVec.setWidth_eq]

theorem pack_subnormal (s : Sign) {m : BitVec 52} (hm : 0 < m.toNat) :
    UnpackedFloat.pack Format.binary64 (.finite s m.toNat (-1074) hm) =
      packComponents Format.binary64 s 0#11 m := by
  have hlog : ¬ m.toNat.log2 + 1 = 53 := by
    have hlt := (Nat.log2_lt hm.ne').2 m.isLt
    omega
  unfold UnpackedFloat.pack
  change (if 2 ^ 11 ≤ ((-1074 : Int) + 1023 + 52).toNat + 1 then _
    else if m.toNat.log2 + 1 = 53 then _
      else packComponents Format.binary64 s 0#11 (BitVec.ofNat 52 m.toNat)) = _
  rw [if_neg (by decide), if_neg hlog, BitVec.ofNat_toNat, BitVec.setWidth_eq]

theorem pack_unpack {b : BitVec Format.binary64.numBits}
    (h : UnpackedFloat.unpack Format.binary64 b ≠ .notANumber) :
    UnpackedFloat.pack Format.binary64 (UnpackedFloat.unpack Format.binary64 b) = b := by
  have hb := packComponents_unpack b
  unfold UnpackedFloat.unpack at h ⊢
  dsimp only at h ⊢
  by_cases hones : unpackExponent b = -1#(Format.binary64.exponentBits)
  · rw [if_pos hones] at h ⊢
    by_cases hzero : unpackMantissa b = 0#(Format.binary64.mantissaBitsWithoutImplicit)
    · rw [if_pos hzero]
      rw [hones, hzero] at hb
      exact hb
    · rw [if_neg hzero] at h
      exact absurd rfl h
  · rw [if_neg hones]
    by_cases hlow : unpackExponent b = 0#(Format.binary64.exponentBits)
    · rw [if_pos hlow]
      by_cases hzero : unpackMantissa b = 0#(Format.binary64.mantissaBitsWithoutImplicit)
      · rw [dif_pos hzero]
        rw [hlow, hzero] at hb
        exact hb
      · rw [dif_neg hzero]
        rw [hlow] at hb ⊢
        exact (pack_subnormal _ _).trans hb
    · rw [if_neg hlow]
      exact (pack_normal _ _ hones _).trans hb

/-! ## What bits stand for -/

theorem toBits_withSign {bits : Nat} (negative : Bool) (h : bits ≤ infinityBits) :
    (withSign negative bits).toBits.toNat = if negative then signBit + bits else bits := by
  have hpack := pack_unpack (unpack_signedBits_ne negative h)
  rw [← toNat_signedBits negative h]
  exact congrArg BitVec.toNat hpack

/-- The bits of a sign and of the magnitude below infinity, read apart. -/
theorem signedBits_parts {bits : Nat} (negative : Bool) (h : bits < infinityBits) :
    ((if negative then signBit + bits else bits) / signBit == 1) = negative ∧
    (if negative then signBit + bits else bits) / hiddenBit % 2048 = bits / hiddenBit ∧
    (if negative then signBit + bits else bits) % hiddenBit = bits % hiddenBit := by
  unfold infinityBits hiddenBit at h
  unfold signBit hiddenBit
  cases negative with
  | false =>
    rw [if_neg Bool.false_ne_true, beq_eq_false_iff_ne]
    omega
  | true =>
    rw [if_pos rfl, beq_iff_eq]
    omega

/-- Bits below those of infinity, with either sign, are those of a finite number. -/
theorem decode_withSign {bits : Nat} (negative : Bool) (h : bits < infinityBits) :
    decode (withSign negative bits) =
      if bits / hiddenBit = 0 then .finite negative (bits % hiddenBit) (-1074)
      else .finite negative (hiddenBit + bits % hiddenBit) ((bits / hiddenBit : Nat) - 1075) := by
  obtain ⟨hsign, hexponent, hfraction⟩ := signedBits_parts negative h
  have hfinite : bits / hiddenBit ≠ 2047 := by
    unfold infinityBits hiddenBit at h
    unfold hiddenBit
    omega
  unfold decode
  dsimp only
  rw [toBits_withSign negative h.le, hsign, hexponent, hfraction, if_neg hfinite]

theorem decode_zero (negative : Bool) :
    decode (withSign negative 0) = .finite negative 0 (-1074) :=
  decode_withSign negative (by decide)

/-- Bits that count some units of the hidden bit and a rest stand for as much of a power of two as the
rest, which may be that bit twice. -/
theorem exists_decode_units {u r : Nat} (negative : Bool) (h : u * hiddenBit + r < infinityBits)
    (hr : r ≤ 2 * hiddenBit) (hu : u = 0 ∨ hiddenBit ≤ r) :
    ∃ m : Nat, ∃ e : Int, decode (withSign negative (u * hiddenBit + r)) = .finite negative m e ∧
      dyadic m e = dyadic r (u - 1074) := by
  have parts : ∀ q f, u * hiddenBit + r = q * hiddenBit + f → f < hiddenBit →
      (u * hiddenBit + r) / hiddenBit = q ∧ (u * hiddenBit + r) % hiddenBit = f := by
    unfold hiddenBit
    intro q f hsum hf
    omega
  rw [decode_withSign negative h]
  obtain hlow | ⟨hle, hlt⟩ | htop : r < hiddenBit ∨ (hiddenBit ≤ r ∧ r < 2 * hiddenBit) ∨
      r = 2 * hiddenBit := by omega
  · obtain rfl : u = 0 := hu.resolve_right (Nat.not_le.2 hlow)
    obtain ⟨hdiv, hmod⟩ := parts 0 r rfl hlow
    rw [hdiv, hmod, if_pos rfl]
    exact ⟨r, -1074, rfl, rfl⟩
  · obtain ⟨hdiv, hmod⟩ := parts (u + 1) (r - hiddenBit) (by rw [Nat.succ_mul]; omega) (by omega)
    rw [hdiv, hmod, if_neg (Nat.succ_ne_zero u), Nat.add_sub_cancel' hle]
    exact ⟨r, (u + 1 : Nat) - 1075, rfl, congrArg (dyadic r) (by omega)⟩
  · obtain ⟨hdiv, hmod⟩ := parts (u + 2) 0 (by rw [Nat.add_mul]; omega) (Nat.two_pow_pos 52)
    rw [hdiv, hmod, if_neg (Nat.succ_ne_zero (u + 1)), htop]
    refine ⟨hiddenBit, (u + 2 : Nat) - 1075, rfl, ?_⟩
    have hexp : ((u + 2 : Nat) : Int) - 1075 = (u : Int) - 1074 + 1 := by omega
    rw [hexp, ← dyadic_double]
    push_cast
    rfl

/-! ## Where doubles stand -/

theorem bounds_of_decode {x : Float} {negative : Bool} {m : Nat} {e : Int}
    (h : decode x = .finite negative m e) : m < 2 * hiddenBit ∧ -1074 ≤ e ∧ e ≤ 971 := by
  have hfraction : x.toBits.toNat % hiddenBit < hiddenBit := Nat.mod_lt _ (Nat.two_pow_pos 52)
  have hexponent : x.toBits.toNat / hiddenBit % 2048 < 2048 := Nat.mod_lt _ (by decide)
  unfold decode at h
  dsimp only at h
  split at h
  · split at h <;> cases h
  · split at h
    · cases h
      omega
    · cases h
      omega

/-- The magnitude of a double is a number below `2 ^ 53` times a power of two within bounds. -/
theorem IsDouble.exists_dyadic {q : ℚ} (h : IsDouble q) : ∃ m : Nat, ∃ e : Int,
    |q| = dyadic m e ∧ m < 2 * hiddenBit ∧ -1074 ≤ e ∧ e ≤ 971 := by
  obtain ⟨x, hx⟩ := h
  rw [Number.point?_float] at hx
  cases hdecode : decode x with
  | nan =>
    rw [hdecode] at hx
    cases hx
  | infinite negative =>
    rw [hdecode] at hx
    cases negative <;> cases hx
  | finite negative m e =>
    rw [hdecode] at hx
    have hq : (if negative then -dyadic m e else dyadic m e) = q :=
      WithTop.coe_injective (WithBot.coe_injective (Option.some.inj hx))
    refine ⟨m, e, ?_, bounds_of_decode hdecode⟩
    rw [← hq]
    cases negative with
    | false => exact abs_of_nonneg (dyadic_nonneg m e)
    | true => exact (abs_neg _).trans (abs_of_nonneg (dyadic_nonneg m e))

/-! ## Rounding a quotient -/

/-- From a quotient to the whole number to which it is rounded it is as far as to the nearer one of the
two around it. -/
theorem abs_sub_roundQuotient {n d : Nat} (hd : 0 < d) :
    |(n : Int) - roundQuotient n d * d| = min (n % d : Int) (d - n % d) := by
  have hn : (d : Int) * (n / d) + n % d = n := Int.mul_ediv_add_emod n d
  have hr : (n % d : Int) < d := Int.emod_lt_of_pos _ (by omega)
  have hr' : 0 ≤ (n % d : Int) := Int.emod_nonneg _ (by omega)
  have hlow : (n : Int) - (n / d : Nat) * d = n % d := by
    push_cast
    linarith
  have hhigh : (n : Int) - (n / d + 1 : Nat) * d = n % d - d := by
    push_cast
    linarith
  rcases (roundQuotient_spec n d).1 with ⟨hq, hhalf⟩ | ⟨hq, hhalf⟩
  · rw [hq, hlow, abs_of_nonneg hr', min_eq_left (by omega)]
  · rw [hq, hhigh, abs_of_nonpos (by omega), min_eq_right (by omega), neg_sub]

/-- No whole number is nearer to a quotient than one of the two around it. -/
theorem min_le_abs_sub {n d : Nat} (hd : 0 < d) (k : Int) :
    min (n % d : Int) (d - n % d) ≤ |(n : Int) - k * d| := by
  have hn : (d : Int) * (n / d) + n % d = n := Int.mul_ediv_add_emod n d
  have hpos : (0 : Int) ≤ d := by omega
  obtain hk | hk : k ≤ n / d ∨ n / d + 1 ≤ k := by omega
  · have hmul := mul_le_mul_of_nonneg_right hk hpos
    refine (min_le_left _ _).trans ((le_abs_self _).trans' ?_)
    linarith
  · have hmul := mul_le_mul_of_nonneg_right hk hpos
    refine (min_le_right _ _).trans ((neg_le_abs _).trans' ?_)
    linarith

theorem roundQuotient_nearest {n d : Nat} (hd : 0 < d) (k : Int) :
    |(n : ℚ) / d - roundQuotient n d| ≤ |(n : ℚ) / d - k| := by
  have hpos : (0 : ℚ) < d := Nat.cast_pos.2 hd
  have hscale (j : Int) : |(n : ℚ) / d - j| = (|(n : Int) - j * d| : Int) / d := by
    rw [div_sub' hpos.ne', abs_div, abs_of_pos hpos, mul_comm]
    push_cast
    rfl
  have hround := hscale (roundQuotient n d)
  rw [Int.cast_natCast] at hround
  rw [hround, hscale, div_le_div_iff_of_pos_right hpos, Int.cast_le, abs_sub_roundQuotient hd]
  exact min_le_abs_sub hd k

/-! ## Rounding to the nearest double -/

theorem two_zpow_eq (e : Int) : (2 : ℚ) ^ e = 2 ^ e.toNat / 2 ^ (-e).toNat := by
  rw [← zpow_natCast, ← zpow_natCast, ← zpow_sub₀ two_ne_zero]
  congr 1
  omega

/-- A quotient counted in a power of two. -/
theorem quotient_eq_units (n : Nat) {d : Nat} (hd : 0 < d) (e : Int) : (n : ℚ) / d =
    ((n * 2 ^ (-e).toNat : Nat) : ℚ) / (d * 2 ^ e.toNat : Nat) * 2 ^ e := by
  have hd' : (d : ℚ) ≠ 0 := Nat.cast_ne_zero.2 hd.ne'
  rw [two_zpow_eq]
  push_cast
  field_simp

theorem abs_sub_dyadic (n : Nat) {d : Nat} (hd : 0 < d) (k e : Int) :
    |(n : ℚ) / d - dyadic k e| =
      |((n * 2 ^ (-e).toNat : Nat) : ℚ) / (d * 2 ^ e.toNat : Nat) - k| * 2 ^ e := by
  have hpos : (0 : ℚ) < 2 ^ e := by positivity
  rw [quotient_eq_units n hd e]
  unfold dyadic
  rw [← sub_mul, abs_mul, abs_of_pos hpos]

/-- No double is nearer to a quotient than its units, rounded: it is a multiple of the unit as well, or
it is below all numbers with this unit. -/
theorem roundedUnits_nearest {n d m : Nat} {e : Int} (hn : 0 < n) (hd : 0 < d)
    (hm : m < 2 * hiddenBit) (he : -1074 ≤ e) :
    |(n : ℚ) / d - dyadic (roundedUnits n d) (unitExponent n d)| ≤ |(n : ℚ) / d - dyadic m e| := by
  obtain ⟨-, -, hle⟩ := unitExponent_spec hn hd
  have hunit : 0 < d * 2 ^ (unitExponent n d).toNat := Nat.mul_pos hd (Nat.two_pow_pos _)
  have multiple (k : Int) : |(n : ℚ) / d - dyadic (roundedUnits n d) (unitExponent n d)| ≤
      |(n : ℚ) / d - dyadic k (unitExponent n d)| := by
    rw [abs_sub_dyadic n hd, abs_sub_dyadic n hd]
    refine mul_le_mul_of_nonneg_right ?_ (by positivity)
    exact roundQuotient_nearest hunit k
  obtain hunder | hover := le_or_gt (unitExponent n d) e
  · rw [dyadic_eq_scaled m hunder]
    exact multiple _
  · have htop : dyadic hiddenBit (unitExponent n d) ≤ (n : ℚ) / d := by
      rw [quotient_eq_units n hd (unitExponent n d)]
      refine mul_le_mul_of_nonneg_right ?_ (by positivity)
      rw [le_div_iff₀ (Nat.cast_pos.2 hunit)]
      exact_mod_cast hle (by omega)
    have hbelow : dyadic m e ≤ dyadic hiddenBit (unitExponent n d) := by
      have htwo : 2 ^ 1 ≤ 2 ^ (unitExponent n d - e).toNat :=
        Nat.pow_le_pow_right Nat.two_pos (by omega)
      have hmul := Nat.mul_le_mul_left hiddenBit htwo
      rw [dyadic_eq_scaled hiddenBit hover.le, dyadic_le_dyadic_iff]
      exact_mod_cast show m ≤ hiddenBit * 2 ^ (unitExponent n d - e).toNat by omega
    have hstep := multiple hiddenBit
    rw [abs_of_nonneg (sub_nonneg.2 htop)] at hstep
    rw [abs_of_nonneg (sub_nonneg.2 (hbelow.trans htop))]
    linarith

/-- There are at most `2 ^ 53` units, and at least `2 ^ 52` unless the unit is the smallest one. -/
theorem roundedUnits_bounds {n d : Nat} (hn : 0 < n) (hd : 0 < d) :
    roundedUnits n d ≤ 2 * hiddenBit ∧
      ((unitExponent n d + 1074).toNat = 0 ∨ hiddenBit ≤ roundedUnits n d) := by
  obtain ⟨hlow, hlt, hle⟩ := unitExponent_spec hn hd
  have hunit : 0 < d * 2 ^ (unitExponent n d).toNat := Nat.mul_pos hd (Nat.two_pow_pos _)
  refine ⟨roundQuotient_le hlt, ?_⟩
  obtain heq | hgt := hlow.eq_or_lt
  · exact .inl (by omega)
  · exact .inr (le_roundQuotient hunit (hle hgt))

theorem roundedUnits_zero (d : Nat) : dyadic (roundedUnits 0 d) (unitExponent 0 d) = 0 := by
  have hunits : roundedUnits 0 d = 0 := by
    unfold roundedUnits roundQuotient
    simp
  rw [hunits]
  simp [dyadic]

/-- The double to which a quotient is rounded stands at its units, rounded. -/
theorem exists_decode_of_nearest {negative : Bool} {n d : Nat} {x : Float} (hd : 0 < d)
    (h : nearest negative n d = some x) : ∃ m : Nat, ∃ e : Int,
      decode x = .finite negative m e ∧
      dyadic m e = dyadic (roundedUnits n d) (unitExponent n d) := by
  obtain rfl | hn := Nat.eq_zero_or_pos n
  · cases h
    exact ⟨0, -1074, decode_zero negative, by rw [roundedUnits_zero]; simp [dyadic]⟩
  · have hlow := (unitExponent_spec hn hd).1
    have hu : ((unitExponent n d + 1074).toNat : Int) - 1074 = unitExponent n d := by omega
    obtain ⟨hround, hnormal⟩ := roundedUnits_bounds hn hd
    obtain ⟨bits, hbits, rfl⟩ := Option.map_eq_some_iff.1 h
    rw [nearestBits_eq hn] at hbits
    obtain ⟨hfinite, hbits⟩ := Option.ite_none_right_eq_some.1 hbits
    cases hbits
    obtain ⟨m, e, hdecode, hvalue⟩ := exists_decode_units negative hfinite hround hnormal
    rw [hu] at hvalue
    exact ⟨m, e, hdecode, hvalue⟩

/-- **Rounding is to the nearest double.** The double to which a quotient with a sign is rounded stands
at its units, rounded, with this sign, and no double stands nearer to it. -/
theorem isNearestDouble_of_nearest {negative : Bool} {n d : Nat} {x : Float} (hd : 0 < d)
    (h : nearest negative n d = some x) : ∃ q : ℚ, (Number.float x).point? = some (q : WithBotTop ℚ) ∧
      q = (if negative then -dyadic (roundedUnits n d) (unitExponent n d)
        else dyadic (roundedUnits n d) (unitExponent n d)) ∧
      IsNearestDouble (if negative then -(n / d : ℚ) else n / d) q := by
  obtain ⟨m, e, hdecode, hvalue⟩ := exists_decode_of_nearest hd h
  have hpoint := Number.point?_float x
  rw [hdecode] at hpoint
  dsimp only at hpoint
  rw [hvalue] at hpoint
  refine ⟨_, hpoint, rfl, ⟨x, hpoint⟩, fun r hr => ?_⟩
  have hquotient : (0 : ℚ) ≤ n / d := by positivity
  have hmagnitude : |(n : ℚ) / d - dyadic (roundedUnits n d) (unitExponent n d)| ≤
      |(n : ℚ) / d - (|r|)| := by
    obtain ⟨m', e', habs, hm', he', -⟩ := hr.exists_dyadic
    rw [habs]
    obtain rfl | hn := Nat.eq_zero_or_pos n
    · rw [roundedUnits_zero]
      simp
    · exact roundedUnits_nearest hn hd hm' he'
  have hdistance (a b : ℚ) :
      |(if negative then -a else a) - (if negative then -b else b)| = |a - b| := by
    cases negative with
    | false => rfl
    | true => rw [if_pos rfl, if_pos rfl, neg_sub_neg, abs_sub_comm]
  have hapart {a : ℚ} (ha : 0 ≤ a) : |a - (|r|)| ≤ |(if negative then -a else a) - r| := by
    have habs : |if negative then -a else a| = a := by
      cases negative with
      | false => exact abs_of_nonneg ha
      | true => exact (abs_neg a).trans (abs_of_nonneg ha)
    have h := abs_abs_sub_abs_le (if negative then -a else a) r
    rwa [habs] at h
  calc _ = |(n : ℚ) / d - dyadic (roundedUnits n d) (unitExponent n d)| := hdistance _ _
    _ ≤ |(n : ℚ) / d - (|r|)| := hmagnitude
    _ ≤ _ := hapart hquotient

/-! ## Whole numbers -/

theorem roundQuotient_mul_self {b : Nat} (hb : 0 < b) (k : Nat) : roundQuotient (k * b) b = k := by
  have hround := (roundQuotient_spec (k * b) b).1
  rw [Nat.mul_div_cancel k hb, Nat.mul_mod_left] at hround
  omega

/-- A whole number that is a multiple of its unit is not rounded. -/
theorem dyadic_roundedUnits {n : Nat} (h : unitExponent n 1 ≤ 0) :
    dyadic (roundedUnits n 1) (unitExponent n 1) = n := by
  have hzero : (unitExponent n 1).toNat = 0 := by omega
  have hround := roundQuotient_mul_self Nat.one_pos (n * 2 ^ (-unitExponent n 1).toNat)
  have hscale := dyadic_eq_scaled n h
  rw [Nat.mul_one] at hround
  rw [zero_sub] at hscale
  unfold roundedUnits
  rw [hzero, Nat.pow_zero, Nat.mul_one, hround]
  push_cast
  rw [← hscale]
  simp [dyadic]

/-- Rounded to a double a whole number is a whole number. -/
theorem exists_nat_of_roundedUnits (n : Nat) :
    ∃ k : Nat, dyadic (roundedUnits n 1) (unitExponent n 1) = k := by
  obtain hunit | hunit := le_or_gt (unitExponent n 1) 0
  · exact ⟨n, dyadic_roundedUnits hunit⟩
  · have hzero : (-unitExponent n 1).toNat = 0 := by omega
    refine ⟨roundedUnits n 1 * 2 ^ (unitExponent n 1).toNat, ?_⟩
    unfold dyadic
    rw [two_zpow_eq, hzero]
    push_cast
    ring

theorem exists_ofInt? {n : Int} (h : n.natAbs < doubleLimit) : ∃ x, ofInt? n = some x := by
  refine Option.ne_none_iff_exists'.1 fun hnone => ?_
  rw [ofInt?_eq_none_iff] at hnone
  exact hnone.not_gt h

/-- A whole number is its magnitude with its sign. -/
theorem cast_eq_signed (n : Int) :
    (if decide (n < 0) then -(n.natAbs / (1 : Nat) : ℚ) else n.natAbs / (1 : Nat)) = n := by
  rw [Nat.cast_one, div_one, Nat.cast_natAbs]
  obtain hneg | hpos := lt_or_ge n 0
  · rw [decide_eq_true hneg, if_pos rfl, abs_of_neg hneg, Int.cast_neg, neg_neg]
  · rw [decide_eq_false hpos.not_gt, if_neg Bool.false_ne_true, abs_of_nonneg hpos]

/-- Whole numbers below `2 ^ 53` are doubles. -/
theorem isDouble_of_lt {n : Int} (h : n.natAbs < 2 * hiddenBit) : IsDouble n := by
  have hexact : dyadic (roundedUnits n.natAbs 1) (unitExponent n.natAbs 1) = n.natAbs := by
    obtain hzero | hpos := Nat.eq_zero_or_pos n.natAbs
    · rw [hzero, roundedUnits_zero, Nat.cast_zero]
    · obtain ⟨-, -, hle⟩ := unitExponent_spec hpos Nat.one_pos
      refine dyadic_roundedUnits (le_of_not_gt fun hunit => ?_)
      have hunits := hle (by omega)
      have hzero : (-unitExponent n.natAbs 1).toNat = 0 := by omega
      have htwo : 2 ^ 1 ≤ 2 ^ (unitExponent n.natAbs 1).toNat :=
        Nat.pow_le_pow_right Nat.two_pos (by omega)
      rw [hzero, Nat.pow_zero, Nat.mul_one, Nat.one_mul] at hunits
      unfold hiddenBit at h
      omega
  have hlimit : n.natAbs < doubleLimit := by
    have hle := le_doubleLimit
    unfold hiddenBit at h
    omega
  obtain ⟨x, hx⟩ := exists_ofInt? hlimit
  obtain ⟨q, -, hq, hnearest⟩ := isNearestDouble_of_nearest Nat.one_pos hx
  have hvalue : q = n := by
    rw [hq, hexact, ← cast_eq_signed, Nat.cast_one, div_one]
  exact hvalue ▸ hnearest.isDouble

/-- Within the range of doubles a nearest one is found by the magnitude. It is a whole number. -/
theorem exists_nearest_int {n : Int} (hn : n.natAbs < doubleLimit) : ∃ x m e, ∃ k : Int,
    ofInt? n.natAbs = some x ∧ decode x = .finite false m e ∧ dyadic m e = k.natAbs ∧
      IsNearestDouble n k := by
  obtain ⟨j, hj⟩ := exists_nat_of_roundedUnits n.natAbs
  obtain ⟨x, hx⟩ := exists_ofInt? (n := n.natAbs) (by rwa [Int.natAbs_natCast])
  obtain ⟨y, hy⟩ := exists_ofInt? hn
  have hmagnitude : nearest false n.natAbs 1 = some x := by
    unfold ofInt? at hx
    rwa [Int.natAbs_natCast, decide_eq_false (Int.not_lt.2 (Int.natCast_nonneg _))] at hx
  obtain ⟨m, e, hdecode, hvalue⟩ := exists_decode_of_nearest Nat.one_pos hmagnitude
  obtain ⟨q, -, hq, hnearest⟩ := isNearestDouble_of_nearest Nat.one_pos hy
  rw [cast_eq_signed, hq, hj] at hnearest
  obtain hneg | hpos := lt_or_ge n 0
  · rw [decide_eq_true hneg, if_pos rfl, ← Int.cast_natCast, ← Int.cast_neg] at hnearest
    exact ⟨x, m, e, -j, hx, hdecode, by rw [hvalue, hj, Int.natAbs_neg, Int.natAbs_natCast], hnearest⟩
  · rw [decide_eq_false hpos.not_gt, if_neg Bool.false_ne_true, ← Int.cast_natCast] at hnearest
    exact ⟨x, m, e, j, hx, hdecode, by rw [hvalue, hj, Int.natAbs_natCast], hnearest⟩

/-- A whole number that is a double is the nearest one. -/
theorem IsNearestDouble.isDouble_iff {n k : Int} (h : IsNearestDouble n k) : IsDouble n ↔ k = n := by
  constructor
  · intro hn
    have hle := h.nearest n hn
    rw [sub_self, abs_zero, abs_nonpos_iff, sub_eq_zero] at hle
    exact_mod_cast hle.symm
  · rintro rfl
    exact h.isDouble

/-- The nearest double has the sign of the whole number, since zero and minus one are doubles. -/
theorem IsNearestDouble.neg_iff {n k : Int} (h : IsNearestDouble n k) : k < 0 ↔ n < 0 := by
  have hle (j : Int) (hj : j.natAbs < 2 * hiddenBit) : |n - k| ≤ |n - j| := by
    exact_mod_cast h.nearest j (isDouble_of_lt hj)
  constructor
  · intro hk
    by_contra hn
    have hzero := hle 0 (by decide)
    rw [abs_of_nonneg (by omega), abs_of_nonneg (by omega)] at hzero
    omega
  · intro hn
    by_contra hk
    have hone := hle (-1) (by decide)
    rw [abs_of_nonpos (by omega), abs_of_nonpos (by omega)] at hone
    omega

/-- A double that stands at a whole number is written with the digits of the number. -/
theorem scaledDigits_of_dyadic {m k : Nat} {e : Int} (h : dyadic m e = k) :
    scaledDigits m e 0 = k := by
  have hpos : (0 : ℚ) < 2 ^ (-e).toNat := by positivity
  have hscaled : m * 2 ^ e.toNat = k * 2 ^ (-e).toNat := by
    unfold dyadic at h
    rw [two_zpow_eq, Int.cast_natCast, mul_div_assoc', div_eq_iff hpos.ne'] at h
    exact_mod_cast h
  unfold scaledDigits
  rw [scaleBinary_eq]
  dsimp only
  have hten : Nat.pow 10 (0 : Int).toNat = 1 := rfl
  rw [if_pos (le_refl 0), hten, Nat.mul_one, Nat.one_mul, hscaled]
  exact roundQuotient_mul_self (Nat.two_pow_pos _) k

/-- No double is beyond the largest one. -/
theorem IsDouble.abs_lt {q : ℚ} (h : IsDouble q) : |q| < doubleLimit := by
  obtain ⟨m, e, habs, hm, -, he⟩ := h.exists_dyadic
  have htop := halfUnitExponent_eq
  have hexp : dyadic m e ≤ dyadic m (halfUnitExponent + 1) := by
    unfold dyadic
    refine mul_le_mul_of_nonneg_left ?_ (Nat.cast_nonneg m)
    exact zpow_le_zpow_right₀ one_le_two (by omega)
  have hless : dyadic (2 * m) halfUnitExponent < dyadic (2 ^ 54 - 1 : Nat) halfUnitExponent := by
    rw [dyadic_lt_dyadic_iff]
    unfold hiddenBit at hm
    omega
  have hlimit : dyadic (2 ^ 54 - 1 : Nat) halfUnitExponent = doubleLimit := by
    rw [doubleLimit_eq]
    unfold dyadic
    rw [zpow_natCast]
    push_cast
    rfl
  rw [habs, ← hlimit]
  rw [← dyadic_double] at hexp
  exact hexp.trans_lt hless

end Spreadsheet.Numeral
