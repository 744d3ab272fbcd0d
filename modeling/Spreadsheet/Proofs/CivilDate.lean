import Mathlib
import Spreadsheet.Calendar.Succession

/-!
# Days and their numbers

Day numbers count the days of the calendar one after the other (`dayNumber_next`), so each number
from 1 on is that of exactly one day (`exists_dayNumber`, `eq_of_dayNumber_eq`). Year, month and day
are found from the number by division (`yearOfDay_eq`) and by counting months (`monthOfDay_eq`).
Dates and the civil dates of the years 1 to 9999 are therefore the same (`ofCivil?_eq_some_iff`), and
adding to the number of a date goes so many days ahead or back (`addDays?_eq_some_iff`).
-/

namespace Spreadsheet.Calendar

/-! ## Years -/

/-- The number of complete cycles, and the days after them. -/
theorem div_mod_cycles {count length rest : Nat} (h : rest < length) :
    (count * length + rest) / length = count ∧ (count * length + rest) % length = rest := by
  rw [Nat.mul_comm]
  exact ⟨by rw [Nat.mul_add_div (by omega), Nat.div_eq_of_lt h, Nat.add_zero],
    by rw [Nat.mul_add_mod, Nat.mod_eq_of_lt h]⟩

/-- The number of complete cycles where the fourth one may have days more. -/
theorem min_div_cycles {count length rest : Nat} (hlength : 0 < length) (hcount : count ≤ 3)
    (h : count < 3 → rest < length) : min ((count * length + rest) / length) 3 = count := by
  rcases Nat.lt_or_eq_of_le hcount with hlt | rfl
  · rw [(div_mod_cycles (h hlt)).1, Nat.min_eq_left hcount]
  · refine Nat.min_eq_right ((Nat.le_div_iff_mul_le hlength).2 (Nat.le_add_right _ _))

section

variable {a b c e : Nat}

/-- A year by the cycles of 400, 100, 4 and 1 years that are complete before it. -/
theorem exists_cycles {year : Nat} (h : 1 ≤ year) :
    ∃ a b c e, b ≤ 3 ∧ c ≤ 24 ∧ e ≤ 3 ∧ year = a * 400 + b * 100 + c * 4 + e + 1 :=
  ⟨(year - 1) / 400, (year - 1) % 400 / 100, (year - 1) % 100 / 4, (year - 1) % 4,
    by omega, by omega, by omega, by omega⟩

theorem daysBeforeYear_cycles (hb : b ≤ 3) (hc : c ≤ 24) (he : e ≤ 3) :
    daysBeforeYear (a * 400 + b * 100 + c * 4 + e + 1) =
      a * 146097 + b * 36524 + c * 1461 + e * 365 := by
  have h4 : (a * 400 + b * 100 + c * 4 + e) / 4 = a * 100 + b * 25 + c := by omega
  have h100 : (a * 400 + b * 100 + c * 4 + e) / 100 = a * 4 + b := by omega
  have h400 : (a * 400 + b * 100 + c * 4 + e) / 400 = a := by omega
  unfold daysBeforeYear
  dsimp only
  rw [Nat.add_sub_cancel, h4, h100, h400]
  omega

/-- The last year of a cycle of four years is a leap year, unless it is the last one of a cycle of
100 years but not of one of 400 years. -/
theorem isLeap_cycles (hb : b ≤ 3) (hc : c ≤ 24) (he : e ≤ 3) :
    isLeap (a * 400 + b * 100 + c * 4 + e + 1) = true ↔ e = 3 ∧ (c = 24 → b = 3) := by
  unfold isLeap
  simp only [Bool.and_eq_true, Bool.or_eq_true, beq_iff_eq, bne_iff_ne]
  omega

theorem daysInYear_cycles (hb : b ≤ 3) (hc : c ≤ 24) (he : e ≤ 3) :
    daysInYear (a * 400 + b * 100 + c * 4 + e + 1) =
      if e = 3 ∧ (c = 24 → b = 3) then 366 else 365 := by
  unfold daysInYear
  exact if_congr (isLeap_cycles hb hc he) rfl rfl

end

theorem daysBeforeYear_succ {year : Nat} (h : 1 ≤ year) :
    daysBeforeYear (year + 1) = daysBeforeYear year + daysInYear year := by
  obtain ⟨n, rfl⟩ := Nat.exists_eq_add_of_le' h
  unfold daysBeforeYear daysInYear isLeap
  dsimp only
  rw [Nat.add_sub_cancel, Nat.add_sub_cancel, Nat.succ_div, Nat.succ_div, Nat.succ_div]
  simp only [Nat.dvd_iff_mod_eq_zero, Bool.and_eq_true, Bool.or_eq_true, beq_iff_eq, bne_iff_ne]
  split_ifs <;> omega

theorem daysBeforeYear_mono {year later : Nat} (h : year ≤ later) :
    daysBeforeYear year ≤ daysBeforeYear later := by
  induction later, h using Nat.le_induction with
  | base => exact Nat.le_refl _
  | succ later _ ih =>
    cases later with
    | zero => exact ih
    | succ later =>
      rw [daysBeforeYear_succ (Nat.succ_pos later)]
      exact ih.trans (Nat.le_add_right _ _)

/-- **The year of a day.** The last day of a leap year at the end of a cycle of 4 or 400 years is the
day that the cycle has more than its shorter ones together, which is why the numbers of the shorter
cycles are cut off at 3. -/
theorem yearOfDay_eq {year rest : Nat} (hyear : 1 ≤ year) (hrest : rest < daysInYear year) :
    yearOfDay (daysBeforeYear year + rest + 1) = (year, rest) := by
  obtain ⟨a, b, c, e, hb, hc, he, rfl⟩ := exists_cycles hyear
  rw [daysInYear_cycles hb hc he] at hrest
  rw [daysBeforeYear_cycles hb hc he]
  have hone : e < 3 → rest < 365 := by
    split at hrest <;> omega
  have hfour : e * 365 + rest < 1461 ∧ (c = 24 → b < 3 → e * 365 + rest < 1460) := by
    split at hrest <;> omega
  have hcentury : b < 3 → c * 1461 + (e * 365 + rest) < 36524 := by omega
  have hall : b * 36524 + (c * 1461 + (e * 365 + rest)) < 146097 := by omega
  have hdays : a * 146097 + b * 36524 + c * 1461 + e * 365 + rest + 1 - 1 =
      a * 146097 + (b * 36524 + (c * 1461 + (e * 365 + rest))) := by omega
  obtain ⟨h400, hmod400⟩ := @div_mod_cycles a _ _ hall
  obtain ⟨h4, hmod4⟩ := @div_mod_cycles c _ _ hfour.1
  unfold yearOfDay
  dsimp only
  rw [hdays, h400, hmod400, min_div_cycles (by decide) hb hcentury, Nat.add_sub_cancel_left, h4,
    hmod4, min_div_cycles (by decide) he hone, Nat.add_sub_cancel_left]

/-! ## Months -/

theorem daysInMonth_pos (year month : Nat) : 1 ≤ daysInMonth year month := by
  unfold daysInMonth
  split
  · split <;> decide
  all_goals decide

theorem daysInMonth_le (year month : Nat) : daysInMonth year month ≤ 31 := by
  unfold daysInMonth
  split
  · split <;> decide
  all_goals decide

theorem daysBeforeMonth_succ {year month : Nat} (h : 1 ≤ month) :
    daysBeforeMonth year (month + 1) = daysBeforeMonth year month + daysInMonth year month := by
  obtain ⟨month, rfl⟩ := Nat.exists_eq_add_of_le' h
  rfl

theorem daysBeforeMonth_mono {year month later : Nat} (h : month ≤ later) :
    daysBeforeMonth year month ≤ daysBeforeMonth year later := by
  induction later, h using Nat.le_induction with
  | base => exact Nat.le_refl _
  | succ later _ ih =>
    cases later with
    | zero => exact ih
    | succ later => exact ih.trans (Nat.le_add_right _ _)

theorem daysBeforeMonth_thirteen (year : Nat) : daysBeforeMonth year 13 = daysInYear year := by
  unfold daysInYear
  simp only [daysBeforeMonth, daysInMonth]
  split <;> rfl

/-- **The month of a day.** The months are counted off one after the other, at most as many as are
left. -/
theorem monthOfDay_eq {year month day : Nat} (hday : 1 ≤ day) (hle : day ≤ daysInMonth year month)
    {more : Nat} : ∀ {rest start : Nat}, 1 ≤ start → start ≤ month → month ≤ start + more →
    rest + daysBeforeMonth year start + 1 = daysBeforeMonth year month + day →
    monthOfDay year rest more start = (month, day) := by
  induction more with
  | zero =>
    intro rest start hstart hfrom hto hrest
    obtain rfl : month = start := Nat.le_antisymm hto hfrom
    obtain rfl : rest + 1 = day := by omega
    rfl
  | succ more ih =>
    intro rest start hstart hfrom hto hrest
    have hsucc : daysBeforeMonth year (start + 1) = _ := daysBeforeMonth_succ hstart
    unfold monthOfDay
    dsimp only
    rcases Nat.lt_or_eq_of_le hfrom with hlt | rfl
    · have hmono : daysBeforeMonth year (start + 1) ≤ daysBeforeMonth year month :=
        daysBeforeMonth_mono hlt
      rw [if_neg (by omega)]
      exact ih (by omega) hlt (by omega) (by omega)
    · obtain rfl : rest + 1 = day := by omega
      exact if_pos hle

/-! ## Days -/

namespace Civil

variable {c c' : Civil}

theorem valid_iff : c.Valid ↔ c.IsDay ∧ c.year ≤ 9999 :=
  ⟨fun ⟨h1, h2, h3, h4, h5, h6⟩ => ⟨⟨h1, h3, h4, h5, h6⟩, h2⟩,
    fun ⟨⟨h1, h3, h4, h5, h6⟩, h2⟩ => ⟨h1, h2, h3, h4, h5, h6⟩⟩

theorem IsDay.next (h : c.IsDay) : c.next.IsDay := by
  unfold Civil.next
  split
  · exact ⟨h.one_le_year, h.one_le_month, h.month_le, Nat.succ_pos _, ‹_›⟩
  · split
    · exact ⟨h.one_le_year, Nat.succ_pos _, ‹_›, Nat.le_refl _, daysInMonth_pos _ _⟩
    · exact ⟨Nat.succ_pos _, Nat.le_refl _, Nat.succ_pos _, Nat.le_refl _, daysInMonth_pos _ _⟩

/-- The number of days of the year up to a day. -/
theorem IsDay.day_of_year (h : c.IsDay) :
    daysBeforeMonth c.year c.month + c.day ≤ daysInYear c.year := by
  have hmono : daysBeforeMonth c.year (c.month + 1) ≤ daysBeforeMonth c.year 13 :=
    daysBeforeMonth_mono (Nat.succ_le_succ h.month_le)
  rw [daysBeforeMonth_thirteen, daysBeforeMonth_succ h.one_le_month] at hmono
  exact (Nat.add_le_add_left h.day_le _).trans hmono

/-- **Numbers count days.** -/
theorem IsDay.dayNumber_next (h : c.IsDay) : dayNumber c.next = dayNumber c + 1 := by
  have hmonth := h.month_le
  unfold Civil.next dayNumber
  split
  · exact (Nat.add_assoc _ _ _).symm
  · next hday =>
    have hlast : c.day = daysInMonth c.year c.month :=
      Nat.le_antisymm h.day_le (Nat.le_of_not_lt hday)
    split
    · dsimp only
      rw [daysBeforeMonth_succ h.one_le_month, hlast, ← Nat.add_assoc (daysBeforeYear c.year)]
    · have htwelve : c.month = 12 := by omega
      have hyear := daysBeforeMonth_thirteen c.year
      rw [daysBeforeMonth_succ (by decide)] at hyear
      rw [hlast, htwelve, Nat.add_assoc (daysBeforeYear c.year), hyear,
        ← daysBeforeYear_succ h.one_le_year]
      rfl

-- 1900 is no leap year.
example : (⟨1900, 2, 28⟩ : Civil).next = ⟨1900, 3, 1⟩ := by decide

/-- Each number from 1 on is that of a day. -/
theorem exists_dayNumber {n : Nat} (h : 1 ≤ n) : ∃ c : Civil, c.IsDay ∧ dayNumber c = n := by
  induction n, h using Nat.le_induction with
  | base => exact ⟨⟨1, 1, 1⟩, ⟨by decide, by decide, by decide, by decide, by decide⟩, rfl⟩
  | succ n _ ih =>
    obtain ⟨c, hc, rfl⟩ := ih
    exact ⟨c.next, hc.next, hc.dayNumber_next⟩

theorem IsDay.one_le_dayNumber (h : c.IsDay) : 1 ≤ dayNumber c :=
  h.one_le_day.trans (Nat.le_add_left _ _)

/-- Year, month and day are found from the number. -/
theorem IsDay.exists_rest (h : c.IsDay) : ∃ rest, yearOfDay (dayNumber c) = (c.year, rest) ∧
    monthOfDay c.year rest 11 1 = (c.month, c.day) := by
  have hlast := h.day_of_year
  obtain ⟨rest, hrest⟩ : ∃ rest, daysBeforeMonth c.year c.month + c.day = rest + 1 :=
    Nat.exists_eq_add_of_le' (h.one_le_day.trans (Nat.le_add_left _ _))
  refine ⟨rest, ?_, ?_⟩
  · rw [dayNumber, Nat.add_assoc, hrest, ← Nat.add_assoc]
    exact yearOfDay_eq h.one_le_year (by omega)
  · exact monthOfDay_eq h.one_le_day h.day_le (Nat.le_refl 1) h.one_le_month h.month_le hrest.symm

/-- Days with the same number are the same. -/
theorem IsDay.eq_of_dayNumber_eq (h : c.IsDay) (h' : c'.IsDay) (heq : dayNumber c = dayNumber c') :
    c = c' := by
  obtain ⟨rest, hyear, hmonth⟩ := h.exists_rest
  obtain ⟨rest', hyear', hmonth'⟩ := h'.exists_rest
  rw [heq, hyear', Prod.mk.injEq] at hyear
  obtain ⟨hyear, rfl⟩ := hyear
  rw [← hyear, hmonth', Prod.mk.injEq] at hmonth
  obtain ⟨year, month, day⟩ := c
  exact Civil.mk.injEq .. ▸ ⟨hyear.symm, hmonth.1.symm, hmonth.2.symm⟩

theorem iterate_next (h : c.IsDay) (n : Nat) :
    (next^[n] c).IsDay ∧ dayNumber (next^[n] c) = dayNumber c + n := by
  induction n with
  | zero => exact ⟨h, rfl⟩
  | succ n ih =>
    rw [Function.iterate_succ_apply', ih.1.dayNumber_next, ih.2]
    exact ⟨ih.1.next, rfl⟩

/-- Going ahead by days is adding to the number. -/
theorem isDaysAfter_iff (h : c.IsDay) (h' : c'.IsDay) (n : Int) :
    c'.IsDaysAfter n c ↔ (dayNumber c' : Int) = dayNumber c + n := by
  obtain ⟨hday, hnumber⟩ := iterate_next h n.toNat
  obtain ⟨hday', hnumber'⟩ := iterate_next h' (-n).toNat
  constructor
  · intro heq
    have hboth := congrArg dayNumber heq
    omega
  · intro heq
    exact hday.eq_of_dayNumber_eq hday' (by omega)

/-- The days up to the year 9999 are those with a number up to the last one. -/
theorem IsDay.dayNumber_le_iff (h : c.IsDay) : dayNumber c ≤ lastDay ↔ c.year ≤ 9999 := by
  have hfirst := h.one_le_day
  have hlast := h.day_of_year
  have hsucc := daysBeforeYear_succ h.one_le_year
  have hend : daysBeforeYear 10000 = lastDay := rfl
  unfold dayNumber
  constructor
  · intro hle
    by_contra hyear
    have hmono : daysBeforeYear 10000 ≤ daysBeforeYear c.year :=
      daysBeforeYear_mono (Nat.lt_of_not_le hyear)
    omega
  · intro hyear
    have hmono : daysBeforeYear (c.year + 1) ≤ daysBeforeYear 10000 :=
      daysBeforeYear_mono (Nat.succ_le_succ hyear)
    omega

end Civil

namespace Date

variable {c : Civil} {d d' : Date}

theorem ofDay?_eq_some_iff {n : Int} : ofDay? n = some d ↔ (d.day : Int) = n := by
  obtain ⟨day, hfirst, hlast⟩ := d
  unfold ofDay?
  split
  · rw [Option.some.injEq, Date.mk.injEq]
    show n.toNat = day ↔ (day : Int) = n
    omega
  · refine ⟨nofun, fun heq => ?_⟩
    dsimp only at heq
    omega

theorem exists_ofDay? {n : Int} (h : 1 ≤ n) (h' : n ≤ lastDay) : ∃ d, ofDay? n = some d :=
  ⟨_, dif_pos ⟨h, h'⟩⟩

/-- A date is a day of the years 1 to 9999, with its number. -/
theorem civil_spec (d : Date) : d.civil.Valid ∧ dayNumber d.civil = d.day := by
  obtain ⟨c, hc, hday⟩ := Civil.exists_dayNumber d.one_le_day
  have hcivil : d.civil = c := by
    obtain ⟨rest, hyear, hmonth⟩ := hc.exists_rest
    unfold civil
    rw [← hday, hyear]
    dsimp only
    rw [hmonth]
  rw [hcivil]
  exact ⟨Civil.valid_iff.2 ⟨hc, hc.dayNumber_le_iff.1 (hday ▸ d.day_le)⟩, hday⟩

theorem isDay_civil (d : Date) : d.civil.IsDay := (Civil.valid_iff.1 d.civil_spec.1).1

/-- **Dates and civil dates are the same.** -/
theorem ofCivil?_eq_some_iff : ofCivil? c = some d ↔ c.Valid ∧ d.civil = c := by
  obtain ⟨hvalid, hday⟩ := d.civil_spec
  unfold ofCivil?
  split
  · next hc =>
    rw [ofDay?_eq_some_iff, ← hday, Nat.cast_inj]
    refine ⟨fun heq => ⟨hc, ?_⟩, fun h => congrArg dayNumber h.2⟩
    exact d.isDay_civil.eq_of_dayNumber_eq (Civil.valid_iff.1 hc).1 heq
  · next hc => exact ⟨nofun, fun h => absurd h.1 hc⟩

theorem exists_ofCivil? (h : c.Valid) : ∃ d, ofCivil? c = some d ∧ d.civil = c := by
  obtain ⟨hc, hyear⟩ := Civil.valid_iff.1 h
  obtain ⟨d, hd⟩ := exists_ofDay? (n := dayNumber c) (by exact_mod_cast hc.one_le_dayNumber)
    (by exact_mod_cast hc.dayNumber_le_iff.2 hyear)
  have hofCivil : ofCivil? c = some d := by
    unfold ofCivil?
    rw [if_pos h, hd]
  exact ⟨d, hofCivil, (ofCivil?_eq_some_iff.1 hofCivil).2⟩

/-- A date is so many days after another one when its number is so much larger. -/
theorem isDaysAfter_iff (n : Int) : d'.civil.IsDaysAfter n d.civil ↔ (d'.day : Int) = d.day + n := by
  rw [Civil.isDaysAfter_iff d.isDay_civil d'.isDay_civil, d.civil_spec.2, d'.civil_spec.2]

/-- **Adding days goes so many days ahead or back.** -/
theorem addDays?_eq_some_iff (n : Int) :
    d.addDays? n = some d' ↔ d'.civil.IsDaysAfter n d.civil := by
  unfold addDays?
  rw [ofDay?_eq_some_iff, isDaysAfter_iff]

end Date

end Spreadsheet.Calendar
