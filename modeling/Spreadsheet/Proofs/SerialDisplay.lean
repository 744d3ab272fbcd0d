import Mathlib
import Spreadsheet.Proofs.Arguments
import Spreadsheet.Proofs.CivilDate
import Spreadsheet.Proofs.Percent

/-!
# Dates and their serial numbers

From 1899-12-31 on the serial number of a date is positive, so it is shown by the first section, as
the date is. Where that section asks for a date, the number is turned back into the date that it came
from; where it does not, the date is shown by its number (`display_date_eq_display_serial`).
-/

namespace Spreadsheet

open Calendar Numeral Format

/-! ## Signs of whole numbers -/

namespace Number

theorem compare?_int (m n : Int) : (int m).compare? (int n) = some (compare m n) := by
  show some (compare (m * 1) (n * 1)) = _
  rw [Int.mul_one, Int.mul_one]

variable {n : Int}

theorem isNegative_int (n : Int) : (int n).isNegative = decide (n < 0) := by
  unfold isNegative lt
  rw [compare?_int, Bool.eq_iff_iff, beq_iff_eq, Option.some.injEq, compare_lt_iff_lt,
    decide_eq_true_iff]

theorem isZero_int (h : 0 < n) : (int n).isZero = false := by
  unfold isZero Number.eq
  rw [compare?_int, compare_gt_iff_gt.2 h]
  rfl

theorem abs_int (h : 0 < n) : (int n).abs = int n := by
  show int n.natAbs = int n
  rw [Int.natAbs_of_nonneg h.le]

end Number

/-! ## Serial numbers of dates -/

namespace Calendar.Date

/-- The serial number gives the date back. -/
theorem ofSerial?_serial (d : Date) : ofSerial? d.serial = some d := by
  unfold ofSerial? serial
  rw [ofDay?_eq_some_iff, Int.sub_add_cancel]

/-- The serial number counts the days since 1899-12-30. -/
theorem isDaysAfter_serial (d : Date) : d.civil.IsDaysAfter d.serial ⟨1899, 12, 30⟩ := by
  have hepoch : (⟨1899, 12, 30⟩ : Civil).IsDay := (Civil.valid_iff.1 (by decide)).1
  have hnumber : (dayNumber ⟨1899, 12, 30⟩ : Int) = epochDay := by decide
  rw [Civil.isDaysAfter_iff hepoch d.isDay_civil, d.civil_spec.2, hnumber]
  unfold serial
  omega

/-- The days from 1899-12-31 on have a positive serial number. -/
theorem serial_pos {d : Date} (h : d.civil = ⟨1899, 12, 31⟩ ∨ 1900 ≤ d.civil.year) :
    0 < d.serial := by
  have hday := d.civil_spec.2
  have hepoch : epochDay = 693594 := rfl
  unfold serial
  rcases h with h | h
  · have hnumber : dayNumber ⟨1899, 12, 31⟩ = 693595 := by decide
    rw [h] at hday
    omega
  · have hmono := daysBeforeYear_mono h
    have hnumber : daysBeforeYear 1900 = 693595 := by decide
    unfold dayNumber at hday
    omega

end Calendar.Date

namespace Format

theorem dateOfNumber_serial (d : Date) : dateOfNumber (.int d.serial) = .ok (some d) := by
  obtain ⟨x, hx⟩ := Option.isSome_iff_exists.1 (isSome_ofInt?_serial d)
  have hfloat : (Number.int d.serial).toFloat = .ok x := by
    unfold Number.toFloat
    dsimp only
    rw [hx]
  unfold dateOfNumber
  rw [hfloat]
  show Except.ok (Date.ofSerial? d.serial) = _
  rw [d.ofSerial?_serial]

/-- A positive number is shown by the first section. -/
theorem showNumber_positive {n : Int} (h : 0 < n) (v : Value) (first : List Char)
    (rest : List (List Char)) :
    showNumber v (.int n) (first :: rest) = do
      let (s, color) ← prepare first
      if isDateSection s then
        match ← dateOfNumber (.int n) with
        | some date => return ⟨renderDate date s, color⟩
        | none => showPlain v
      else
        let body ← renderNumber (.int n) s
        return ⟨String.ofList body, color⟩ := by
  unfold showNumber
  rw [Number.isNegative_int, decide_eq_false h.le.not_gt, Number.isZero_int h]
  dsimp only
  rw [Number.abs_int h]
  rfl

theorem serialOf_date (d : Date) : serialOf (.date d) = .ok (.int d.serial) := rfl

/-- A date with a positive serial number is shown as that number is. -/
theorem showDate_eq_showNumber {d : Date} (h : 0 < d.serial) {sections : List (List Char)}
    (hsections : sections ≠ []) : showDate d (serialOf (.date d)) sections =
      showNumber (.int d.serial) (.int d.serial) sections := by
  obtain ⟨first, rest, rfl⟩ := List.exists_cons_of_ne_nil hsections
  have hnumber := showNumber_positive h (.int d.serial) first rest
  unfold showDate
  show prepare first >>= _ = _
  cases hprepare : prepare first with
  | error f =>
    rw [hnumber, hprepare]
    rfl
  | ok prepared =>
    obtain ⟨s, color⟩ := prepared
    by_cases hdate : isDateSection s = true
    · rw [hnumber, hprepare]
      show (if isDateSection s = true then _ else _) = (if isDateSection s = true then _ else _)
      rw [if_pos hdate, if_pos hdate, dateOfNumber_serial]
      rfl
    · show (if isDateSection s = true then _ else _) = _
      rw [if_neg hdate, serialOf_date]
      rfl

/-- **A date and its serial number display alike.** Each day from 1899-12-31 to 9999-12-31 is the date
that its serial number, the count of days since 1899-12-30, is turned back into, and every format
shows both in the same text and color, or refuses both, unless it shows values as they are. -/
theorem display_date_eq_display_serial {c : Civil} (hc : c.Valid)
    (hfrom : c = ⟨1899, 12, 31⟩ ∨ 1900 ≤ c.year) :
    ∃ d, Date.ofCivil? c = some d ∧ d.civil = c ∧ c.IsDaysAfter d.serial ⟨1899, 12, 30⟩ ∧
      Date.ofSerial? d.serial = some d ∧
      ∀ format, isPlain format = false →
        display (.date d) (some format) = display (.int d.serial) (some format) := by
  obtain ⟨d, hd, rfl⟩ := Date.exists_ofCivil? hc
  refine ⟨d, hd, rfl, d.isDaysAfter_serial, d.ofSerial?_serial, fun format hplain => ?_⟩
  have hshow := showDate_eq_showNumber (Date.serial_pos hfrom) (splitSections_ne_nil format.toList)
  unfold display
  simp only [hplain, Bool.false_eq_true, if_false]
  exact hshow

/-- The first such day, a Sunday, has the serial number 1. -/
theorem display_first_serial : (⟨1899, 12, 31⟩ : Civil).Valid ∧
    ∃ d : Date, d.civil = ⟨1899, 12, 31⟩ ∧ d.serial = 1 ∧
      display (.date d) (some "[Red]dddd \"d\";0;[Blue]\"zero\"") =
        display (.int 1) (some "[Red]dddd \"d\";0;[Blue]\"zero\"") := by
  obtain ⟨d, hofCivil, hcivil, -, -, hdisplay⟩ :=
    display_date_eq_display_serial (by decide : (⟨1899, 12, 31⟩ : Civil).Valid) (.inl rfl)
  have hserial : d.serial = 1 := by
    have hdate : Date.ofCivil? ⟨1899, 12, 31⟩ = some ⟨693595, by decide, by decide⟩ := by decide
    rw [hdate] at hofCivil
    cases hofCivil
    rfl
  rw [hserial] at hdisplay
  exact ⟨by decide, d, hcivil, hserial, hdisplay _ (by cbv)⟩

end Format

end Spreadsheet
