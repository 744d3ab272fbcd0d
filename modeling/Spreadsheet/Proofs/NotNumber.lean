import Mathlib
import Spreadsheet.Calendar.Moment
import Spreadsheet.Proofs.DoubleRange

/-!
# Doubles that are numbers

Not a number is what has all bits of the exponent set and some of the fraction. No double that text
writes or a whole number rounds to is of this kind (`isNaN_withSign`), nor is a quotient of a number
by a finite one other than zero (`isNaN_div`), such as the serial number of a moment.
-/

namespace Spreadsheet.Numeral

open Calendar Float.Model Float.Model.UnpackedFloat

/-! ## Bits -/

theorem toNat_unpackMantissa (b : BitVec 64) :
    (@unpackMantissa Format.binary64 b).toNat = b.toNat % hiddenBit := by
  rw [unpackMantissa_def, BitVec.extractLsb'_toNat]
  rfl

theorem toNat_unpackExponent (b : BitVec 64) :
    (@unpackExponent Format.binary64 b).toNat = b.toNat / hiddenBit % 2048 := by
  rw [unpackExponent_def, BitVec.extractLsb'_toNat, Nat.shiftRight_eq_div_pow]
  rfl

theorem unpack_eq_notANumber_iff (b : BitVec 64) :
    UnpackedFloat.unpack Format.binary64 b = .notANumber ↔
      @unpackExponent Format.binary64 b = -1#11 ∧
      @unpackMantissa Format.binary64 b ≠ 0#52 := by
  unfold UnpackedFloat.unpack
  dsimp only
  split
  · next he =>
    split
    · next hm => simp [hm]
    · next hm => exact ⟨fun _ => ⟨he, hm⟩, fun _ => rfl⟩
  · next he =>
    refine iff_of_false ?_ fun h => he h.1
    split
    · split <;> exact UnpackedFloat.noConfusion
    · exact UnpackedFloat.noConfusion

/-- Bits stand for no number exactly when all bits of the exponent are set and some of the
fraction. -/
theorem unpack_bits_iff (b : BitVec 64) :
    UnpackedFloat.unpack Format.binary64 b = .notANumber ↔
      b.toNat / hiddenBit % 2048 = 2047 ∧ b.toNat % hiddenBit ≠ 0 := by
  rw [unpack_eq_notANumber_iff, ← toNat_unpackMantissa, ← toNat_unpackExponent, ← BitVec.toNat_inj,
    Ne, ← BitVec.toNat_inj]
  rfl

theorem isNaN_iff (x : Float) : isNaN x = true ↔ x.toModel.unpack = .notANumber := by
  refine Iff.trans ?_ (unpack_bits_iff x.toModel.toBits.toBitVec).symm
  change isNaN x = true ↔
    x.toBits.toNat / hiddenBit % 2048 = 2047 ∧ x.toBits.toNat % hiddenBit ≠ 0
  unfold isNaN decode
  dsimp only
  by_cases he : x.toBits.toNat / hiddenBit % 2048 = 2047
  · by_cases hf : x.toBits.toNat % hiddenBit = 0 <;> simp [he, hf]
  · by_cases hz : x.toBits.toNat / hiddenBit % 2048 = 0 <;> simp [he, hz]

/-! ## Packing -/

theorem unpack_packComponents_ne {s : Sign} {e : BitVec 11} {m : BitVec 52}
    (h : e ≠ -1#11 ∨ m = 0#52) :
    UnpackedFloat.unpack Format.binary64 (packComponents Format.binary64 s e m) ≠ .notANumber := by
  rw [Ne, unpack_eq_notANumber_iff, unpackExponent_packComponents, unpackMantissa_packComponents]
  rintro ⟨he, hm⟩
  exact h.elim (fun h => h he) hm

/-- Packing leaves a number a number. -/
theorem unpack_pack_ne {u : UnpackedFloat} (h : u ≠ .notANumber) :
    (Float.Model.pack u).unpack ≠ .notANumber := by
  change UnpackedFloat.unpack Format.binary64 (UnpackedFloat.pack Format.binary64 u) ≠ _
  cases u with
  | notANumber => exact absurd rfl h
  | infinity s => exact unpack_packComponents_ne (.inr rfl)
  | zero s => exact unpack_packComponents_ne (.inr rfl)
  | finite s m e hm =>
    unfold UnpackedFloat.pack
    dsimp only
    split
    · exact unpack_packComponents_ne (.inr rfl)
    · next hexp =>
      split
      · -- Here the exponent is below the one whose bits are all set.
        refine unpack_packComponents_ne (.inl fun he => hexp ?_)
        have hbits := congrArg BitVec.toNat he
        rw [BitVec.toNat_ofNat] at hbits
        change _ % 2048 = 2047 at hbits
        change 2048 ≤ _
        omega
      · exact unpack_packComponents_ne (.inl (by decide))

theorem toNat_signedBits {bits : Nat} (negative : Bool) (h : bits ≤ infinityBits) :
    (UInt64.ofNat (if negative then signBit + bits else bits)).toBitVec.toNat =
      if negative then signBit + bits else bits := by
  refine Nat.mod_eq_of_lt ?_
  unfold infinityBits hiddenBit at h
  unfold signBit
  split <;> omega

/-- Bits up to those of infinity, with either sign, are those of a number. -/
theorem unpack_signedBits_ne {bits : Nat} (negative : Bool) (h : bits ≤ infinityBits) :
    UnpackedFloat.unpack Format.binary64
      (UInt64.ofNat (if negative then signBit + bits else bits)).toBitVec ≠ .notANumber := by
  rw [Ne, unpack_bits_iff, toNat_signedBits negative h]
  unfold infinityBits at h
  unfold signBit
  unfold hiddenBit at *
  split <;> omega

theorem isNaN_withSign {bits : Nat} (negative : Bool) (h : bits ≤ infinityBits) :
    isNaN (withSign negative bits) = false := by
  rw [Bool.eq_false_iff, Ne, isNaN_iff]
  exact unpack_pack_ne (unpack_signedBits_ne negative h)

/-- Rounding keeps a number a number. -/
theorem roundWithAccuracy_ne (s : Sign) (m : Nat) (e : Int) (a : Accuracy) :
    roundWithAccuracy Format.binary64 s m e a ≠ .notANumber := by
  unfold roundWithAccuracy
  dsimp only
  split <;> exact UnpackedFloat.noConfusion

/-- A number by a finite one other than zero is a number. -/
theorem isNaN_div {x y : Float} (hx : isNaN x = false) {s : Sign} {m : Nat} {e : Int} {hm : 0 < m}
    (hy : y.toModel.unpack = .finite s m e hm) : isNaN (x / y) = false := by
  rw [Bool.eq_false_iff, Ne, isNaN_iff] at hx ⊢
  refine unpack_pack_ne ?_
  rw [hy]
  cases hu : x.toModel.unpack with
  | notANumber => exact absurd hu hx
  | infinity _ => exact UnpackedFloat.noConfusion
  | zero _ => exact UnpackedFloat.noConfusion
  | finite s' m' e' hm' =>
    unfold UnpackedFloat.div
    exact roundWithAccuracy_ne _ _ _ _

/-! ## Rounding, reading and serial numbers -/

theorem le_of_nearestBits {n d bits : Nat} (h : nearestBits n d = some bits) :
    bits ≤ infinityBits := by
  obtain rfl | hn := Nat.eq_zero_or_pos n
  · cases h
    exact Nat.zero_le _
  · rw [nearestBits_eq hn] at h
    obtain ⟨hlt, hbits⟩ := Option.ite_none_right_eq_some.1 h
    cases hbits
    exact hlt.le

theorem isNaN_of_nearest {negative : Bool} {n d : Nat} {x : Float}
    (h : nearest negative n d = some x) : isNaN x = false := by
  obtain ⟨bits, hbits, rfl⟩ := Option.map_eq_some_iff.1 h
  exact isNaN_withSign negative (le_of_nearestBits hbits)

theorem isNaN_ofDecimal (negative : Bool) (digits : Nat) (exponent : Int) :
    isNaN (ofDecimal negative digits exponent) = false := by
  have rounded : ∀ n d, (nearestBits n d).getD infinityBits ≤ infinityBits := by
    intro n d
    cases h : nearestBits n d with
    | none => exact Nat.le_refl _
    | some bits => exact le_of_nearestBits h
  unfold ofDecimal
  split
  · exact isNaN_withSign negative (Nat.zero_le _)
  · split
    · exact isNaN_withSign negative (Nat.le_refl _)
    · split
      · exact isNaN_withSign negative (Nat.zero_le _)
      · refine isNaN_withSign negative ?_
        split
        · exact rounded _ _
        · exact rounded _ _

/-- The serial number of a moment is a number. -/
theorem isNaN_of_serial? {t : Moment} {x : Float} (h : t.serial? = some x) : isNaN x = false := by
  obtain ⟨seconds, hseconds, rfl⟩ := Option.map_eq_some_iff.1 h
  have hday : (86400 : Float).toModel.unpack =
      .finite .positive 5937362789990400 (-36) (by decide) := rfl
  exact isNaN_div (isNaN_of_nearest hseconds) hday

end Spreadsheet.Numeral
