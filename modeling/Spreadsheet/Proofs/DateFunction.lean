import Mathlib
import Spreadsheet.Formula.Function
import Spreadsheet.Proofs.Arguments
import Spreadsheet.Proofs.CivilDate

/-!
# Dates from year, month and day

`DATE` counts months on over the ends of a year and days over the ends of a month. On whole numbers
within the range of doubles it returns the day that is so many days after the first of the month, or
before it, exactly where that month and that day lie in the years 1 to 9999 (`dateOf_rolls_over`). A
whole number beyond the doubles is refused, though with the other ones it may name a date.
-/

namespace Spreadsheet

open Calendar Numeral

/-! ## Months and days counted on -/

variable {y m d k : Int} {v w : Value} {date : Date}

/-- The first day of a month of the years 1 to 9999. -/
theorem exists_firstOfMonth_iff {index : Int} :
    (1 ≤ index.fdiv 12 ∧ ∃ first : Date, first.civil = .firstOfMonth index) ↔
      1 ≤ index.fdiv 12 ∧ index.fdiv 12 ≤ 9999 := by
  have hmod : index.fmod 12 = index % 12 := Int.fmod_eq_emod_of_nonneg _ (by decide)
  have hdays := daysInMonth_pos (index.fdiv 12).toNat ((index.fmod 12).toNat + 1)
  refine and_congr_right fun hyear => ⟨?_, fun hle => ?_⟩
  · rintro ⟨first, hfirst⟩
    have hle : (Civil.firstOfMonth index).year ≤ 9999 := hfirst ▸ first.civil_spec.1.2.1
    unfold Civil.firstOfMonth at hle
    dsimp only at hle
    omega
  · have hvalid : (Civil.firstOfMonth index).Valid := by
      unfold Civil.firstOfMonth Civil.Valid
      dsimp only
      omega
    obtain ⟨first, -, hfirst⟩ := Date.exists_ofCivil? hvalid
    exact ⟨first, hfirst⟩

theorem rolledDate?_eq (y m d : Int) : rolledDate? y m d =
    if 1 ≤ (12 * y + m - 1).fdiv 12 then
      (Date.ofCivil? (.firstOfMonth (12 * y + m - 1))).bind fun first => first.addDays? (d - 1)
    else none := by
  have hindex : y * 12 + (m - 1) = 12 * y + m - 1 := by omega
  have hmod : 0 ≤ (12 * y + m - 1).fmod 12 := Int.fmod_nonneg_of_pos _ (by decide)
  have hmonth : ((12 * y + m - 1).fmod 12 + 1).toNat = ((12 * y + m - 1).fmod 12).toNat + 1 := by
    omega
  unfold rolledDate? Civil.firstOfMonth
  dsimp only
  rw [hindex, hmonth]
  rfl

/-- The date that is counted on to, by the first day of the month. -/
theorem rolledDate?_eq_some : rolledDate? y m d = some date ↔
    1 ≤ (12 * y + m - 1).fdiv 12 ∧ ∃ first : Date, first.civil = .firstOfMonth (12 * y + m - 1) ∧
      (date.day : Int) = first.day + (d - 1) := by
  rw [rolledDate?_eq]
  split
  · next hyear =>
    rw [Option.bind_eq_some_iff, and_iff_right hyear]
    refine exists_congr fun first => ?_
    rw [Date.ofCivil?_eq_some_iff, Date.addDays?_eq_some_iff, Date.isDaysAfter_iff]
    exact and_congr_left fun _ => ⟨And.right, fun hfirst => ⟨hfirst ▸ first.civil_spec.1, hfirst⟩⟩
  · next hyear => exact ⟨nofun, fun h => absurd h.1 hyear⟩

theorem rolledDate?_eq_some_iff : rolledDate? y m d = some date ↔
    (1 ≤ (12 * y + m - 1).fdiv 12 ∧ (12 * y + m - 1).fdiv 12 ≤ 9999) ∧
      date.civil.IsDaysAfter (d - 1) (.firstOfMonth (12 * y + m - 1)) := by
  rw [rolledDate?_eq_some, ← exists_firstOfMonth_iff, and_assoc]
  refine and_congr_right fun _ => ⟨?_, ?_⟩
  · rintro ⟨first, hfirst, hday⟩
    rw [← hfirst, Date.isDaysAfter_iff]
    exact ⟨⟨first, rfl⟩, hday⟩
  · rintro ⟨⟨first, hfirst⟩, hday⟩
    rw [← hfirst, Date.isDaysAfter_iff] at hday
    exact ⟨first, hfirst, hday⟩

-- The day before the first of March in a leap year.
example : (rolledDate? 2024 3 0).map Date.civil = some ⟨2024, 2, 29⟩ := by decide

/-- Twelve months are a year. -/
theorem rolledDate?_months (y m d k : Int) :
    rolledDate? y (m + 12 * k) d = rolledDate? (y + k) m d := by
  have hindex : 12 * y + (m + 12 * k) - 1 = 12 * (y + k) + m - 1 := by omega
  rw [rolledDate?_eq, rolledDate?_eq, hindex]

/-- Days more or less are days later or before. -/
theorem rolledDate?_days {date date' : Date} (h : rolledDate? y m (d + k) = some date)
    (h' : rolledDate? y m d = some date') : date.serial = date'.serial + k := by
  obtain ⟨-, first, hfirst, hday⟩ := rolledDate?_eq_some.1 h
  obtain ⟨-, first', hfirst', hday'⟩ := rolledDate?_eq_some.1 h'
  have hsame : first.day = first'.day := by
    rw [← first.civil_spec.2, ← first'.civil_spec.2, hfirst, hfirst']
  unfold Date.serial
  omega

/-- A day of the calendar is counted from the first of its own month. -/
theorem rolledDate?_civil (date : Date) :
    rolledDate? date.civil.year date.civil.month date.civil.day = some date := by
  obtain ⟨hfirst, hlast, hmonth, hmonth', hday, hday'⟩ := date.civil_spec.1
  have hnumber := date.civil_spec.2
  generalize date.civil = c at *
  obtain ⟨year, month, day⟩ := c
  dsimp only at *
  have hdiv : (12 * (year : Int) + month - 1).fdiv 12 = year := by
    rw [Int.fdiv_eq_ediv_of_nonneg _ (by decide)]
    omega
  have hmod : (12 * (year : Int) + month - 1).fmod 12 = month - 1 := by
    rw [Int.fmod_eq_emod_of_nonneg _ (by decide)]
    omega
  have hvalid : (⟨year, month, 1⟩ : Civil).Valid :=
    ⟨hfirst, hlast, hmonth, hmonth', Nat.le_refl 1, daysInMonth_pos _ _⟩
  obtain ⟨first, -, hcivil⟩ := Date.exists_ofCivil? hvalid
  have hfirstDay := first.civil_spec.2
  rw [rolledDate?_eq_some, hdiv]
  refine ⟨by omega, first, ?_, ?_⟩
  · unfold Civil.firstOfMonth
    rw [hcivil, hdiv, hmod, Civil.mk.injEq]
    omega
  · rw [hcivil] at hfirstDay
    unfold dayNumber at hnumber hfirstDay
    dsimp only at hnumber hfirstDay
    omega

/-! ## Whole numbers as arguments -/

theorem wholeArgument_int (name label : String) (n : Int) : wholeArgument name label (.int n) =
    if n.natAbs < doubleLimit then .ok n else .error .tooLarge := by
  have hnone := ofInt?_eq_none_iff n
  unfold wholeArgument
  simp only [Value.number?]
  by_cases hn : n.natAbs < doubleLimit
  · have hsome : (ofInt? n).isSome = true := by
      rw [Option.isSome_iff_ne_none, Ne, hnone, Nat.not_le]
      exact hn
    rw [if_pos hn, if_pos hsome]
    rfl
  · rw [if_neg hn, hnone.2 (Nat.le_of_not_lt hn)]
    rfl

/-- `DATE` of whole numbers: the date that is counted on to, where the numbers are within the range of
doubles. -/
theorem dateOf_int (y m d : Int) : dateOf [.int y, .int m, .int d] =
    if y.natAbs < doubleLimit ∧ m.natAbs < doubleLimit ∧ d.natAbs < doubleLimit then
      match rolledDate? y m d with
      | some date => .ok (.date date)
      | none => .error .invalidDate
    else .error .tooLarge := by
  show (wholeArgument "DATE" "year" (.int y) >>= fun y =>
    wholeArgument "DATE" "month" (.int m) >>= fun m =>
    wholeArgument "DATE" "day" (.int d) >>= fun d =>
    match rolledDate? y m d with
    | some date => (.ok (.date date) : Except Fault Value)
    | none => .error .invalidDate) = _
  rw [wholeArgument_int, wholeArgument_int, wholeArgument_int]
  by_cases hall : y.natAbs < doubleLimit ∧ m.natAbs < doubleLimit ∧ d.natAbs < doubleLimit
  · rw [if_pos hall.1, if_pos hall.2.1, if_pos hall.2.2, if_pos hall]
    rfl
  · rw [if_neg hall]
    by_cases hy : y.natAbs < doubleLimit
    · by_cases hm : m.natAbs < doubleLimit
      · have hd : ¬ d.natAbs < doubleLimit := fun hd => hall ⟨hy, hm, hd⟩
        rw [if_pos hy, if_pos hm, if_neg hd]
        rfl
      · rw [if_pos hy, if_neg hm]
        rfl
    · rw [if_neg hy]
      rfl

theorem dateOf_eq_ok_iff : dateOf [.int y, .int m, .int d] = .ok v ↔
    (y.natAbs < doubleLimit ∧ m.natAbs < doubleLimit ∧ d.natAbs < doubleLimit) ∧
      ∃ date, rolledDate? y m d = some date ∧ v = .date date := by
  rw [dateOf_int]
  split
  · next h =>
    cases hdate : rolledDate? y m d with
    | none => exact ⟨nofun, fun ⟨_, _, hnone, _⟩ => nomatch hnone⟩
    | some date =>
      constructor
      · intro hv
        cases hv
        exact ⟨h, date, rfl, rfl⟩
      · rintro ⟨-, _, heq, rfl⟩
        cases heq
        rfl
  · next h => exact ⟨nofun, fun hv => absurd hv.1 h⟩

/-- Year, month and day of a date are within the range of doubles. -/
theorem civil_within (date : Date) : (date.civil.year : Int).natAbs < doubleLimit ∧
    (date.civil.month : Int).natAbs < doubleLimit ∧ (date.civil.day : Int).natAbs < doubleLimit := by
  obtain ⟨-, hyear, -, hmonth, -, hday⟩ := date.civil_spec.1
  have hlength := daysInMonth_le date.civil.year date.civil.month
  have within : ∀ n : Nat, n ≤ 9999 → (n : Int).natAbs < doubleLimit := fun n hn =>
    Nat.lt_of_lt_of_le (by omega) le_doubleLimit
  exact ⟨within _ hyear, within _ (by omega), within _ (by omega)⟩

/-- **`DATE` rolls over.** On whole numbers within the range of doubles `DATE` returns the day that is
so many days after the first of the month, or before it, exactly where the month and the day lie in
the years 1 to 9999, and has no date otherwise; a whole number beyond the doubles is refused. Twelve
months are a year, days more are days later, and a day of the calendar is returned as it is. -/
theorem dateOf_rolls_over (y m d : Int) :
    (∀ v, dateOf [.int y, .int m, .int d] = .ok v ↔
      (y.natAbs < doubleLimit ∧ m.natAbs < doubleLimit ∧ d.natAbs < doubleLimit) ∧
      (1 ≤ (12 * y + m - 1).fdiv 12 ∧ (12 * y + m - 1).fdiv 12 ≤ 9999) ∧
      ∃ date : Date, v = .date date ∧
        date.civil.IsDaysAfter (d - 1) (.firstOfMonth (12 * y + m - 1))) ∧
    (∀ f, dateOf [.int y, .int m, .int d] = .error f → f =
      if y.natAbs < doubleLimit ∧ m.natAbs < doubleLimit ∧ d.natAbs < doubleLimit then .invalidDate
      else .tooLarge) ∧
    (∀ k v w, dateOf [.int y, .int (m + 12 * k), .int d] = .ok v →
      dateOf [.int (y + k), .int m, .int d] = .ok w → v = w) ∧
    (∀ k v w, dateOf [.int y, .int m, .int (d + k)] = .ok v →
      dateOf [.int y, .int m, .int d] = .ok w →
      ∃ date date' : Date, v = .date date ∧ w = .date date' ∧ date.serial = date'.serial + k) ∧
    ∀ c : Civil, c.Valid → ∃ date : Date, date.civil = c ∧
      dateOf [.int c.year, .int c.month, .int c.day] = .ok (.date date) := by
  refine ⟨fun v => ?_, fun f h => ?_, fun k v w hv hw => ?_, fun k v w hv hw => ?_, fun c hc => ?_⟩
  · rw [dateOf_eq_ok_iff]
    refine and_congr_right fun _ => ⟨?_, ?_⟩
    · rintro ⟨date, hdate, rfl⟩
      obtain ⟨hyear, hafter⟩ := rolledDate?_eq_some_iff.1 hdate
      exact ⟨hyear, date, rfl, hafter⟩
    · rintro ⟨hyear, date, rfl, hafter⟩
      exact ⟨date, rolledDate?_eq_some_iff.2 ⟨hyear, hafter⟩, rfl⟩
  · rw [dateOf_int] at h
    split at h
    · next hall =>
      rw [if_pos hall]
      split at h
      · cases h
      · cases h
        rfl
    · next hall =>
      rw [if_neg hall]
      cases h
      rfl
  · obtain ⟨-, date, hdate, rfl⟩ := dateOf_eq_ok_iff.1 hv
    obtain ⟨-, date', hdate', rfl⟩ := dateOf_eq_ok_iff.1 hw
    rw [rolledDate?_months, hdate', Option.some.injEq] at hdate
    rw [hdate]
  · obtain ⟨-, date, hdate, rfl⟩ := dateOf_eq_ok_iff.1 hv
    obtain ⟨-, date', hdate', rfl⟩ := dateOf_eq_ok_iff.1 hw
    exact ⟨date, date', rfl, rfl, rolledDate?_days hdate hdate'⟩
  · obtain ⟨date, -, rfl⟩ := Date.exists_ofCivil? hc
    exact ⟨date, rfl, dateOf_eq_ok_iff.2 ⟨civil_within date, date, rolledDate?_civil date, rfl⟩⟩

/-- Whole numbers that name a date by rolling over are refused: so many months before the first year
beyond the doubles is January 2024, whose first day `DATE` does not return. -/
theorem dateOf_refuses_months_before :
    (1 ≤ (12 * (doubleLimit : Int) + (24289 - 12 * doubleLimit) - 1).fdiv 12 ∧
      (12 * (doubleLimit : Int) + (24289 - 12 * doubleLimit) - 1).fdiv 12 ≤ 9999 ∧
      ∃ date : Date, date.civil = ⟨2024, 1, 1⟩ ∧ date.civil.IsDaysAfter (1 - 1)
        (.firstOfMonth (12 * (doubleLimit : Int) + (24289 - 12 * doubleLimit) - 1))) ∧
    dateOf [.int doubleLimit, .int (24289 - 12 * doubleLimit), .int 1] = .error .tooLarge := by
  have hindex : 12 * (doubleLimit : Int) + (24289 - 12 * doubleLimit) - 1 = 24288 := by omega
  obtain ⟨date, -, hdate⟩ := Date.exists_ofCivil? (by decide : (⟨2024, 1, 1⟩ : Civil).Valid)
  rw [hindex]
  refine ⟨⟨by decide, by decide, date, hdate, ?_⟩, ?_⟩
  · rw [hdate]
    rfl
  · rw [dateOf_int, if_neg fun h => Nat.lt_irrefl doubleLimit h.1]

end Spreadsheet
