import Mathlib
import Tariff.Instant.Basic
/-
  Tariff.Proofs.Instant.Calendar — the date of a day number.

  A day has a cycle of four hundred years, a year of the cycle, a month and a day of the month, all
  counted from March (`Shifted`). The date of a day is read off these parts and leads back to the day
  (`toDays_ofDays`). Every day that can be written has a date of the calendar (`isValid_ofDays`).
-/

namespace Tariff.Date

/-- The days of a cycle before one of its years. -/
def daysBefore (year : Int) : Int := year * 365 + year / 4 - year / 100

/-- The days of a year before one of its months. -/
def daysBeforeMonth (month : Int) : Int := (153 * month + 2) / 5

/-- The year that begins in March holds the leap day at its end. -/
def EndsInLeapDay (year : Int) : Prop := (year + 1) % 4 = 0 ∧ ((year + 1) % 100 ≠ 0 ∨ year = 399)

/-! ## The year of a cycle -/

/-- The year in which a day of a cycle falls. -/
def yearOfDay (day : Int) : Int := (day - day / 1460 + day / 36524 - day / 146096) / 365

theorem yearOfDay_bounds {day : Int} (h0 : 0 ≤ day) (h1 : day < cycleDays) :
    0 ≤ yearOfDay day ∧ yearOfDay day ≤ 399 := by
  unfold yearOfDay cycleDays at *
  omega

/-- A day of a cycle lies in its year, and after the first 365 days only if the year has more. -/
theorem daysBefore_yearOfDay {day : Int} (h0 : 0 ≤ day) (h1 : day < cycleDays) :
    daysBefore (yearOfDay day) ≤ day ∧ (day < daysBefore (yearOfDay day) + 365 ∨
      (day = daysBefore (yearOfDay day) + 365 ∧ EndsInLeapDay (yearOfDay day))) := by
  obtain ⟨hy0, hy1⟩ := yearOfDay_bounds h0 h1
  have hday : yearOfDay day = (day - day / 1460 + day / 36524 - day / 146096) / 365 := rfl
  unfold daysBefore EndsInLeapDay
  unfold cycleDays at h1
  generalize yearOfDay day = y at *
  -- within one century all years but the last of four are alike
  have hcentury : day / 36524 = 0 ∨ day / 36524 = 1 ∨ day / 36524 = 2 ∨ day / 36524 = 3 ∨ day / 36524 = 4 := by
    omega
  have hyears : y / 100 = 0 ∨ y / 100 = 1 ∨ y / 100 = 2 ∨ y / 100 = 3 := by omega
  have hlast : day / 146096 = 0 ∨ day = 146096 := by omega
  have hfour : y % 4 ≤ 2 ∨ y % 4 = 3 := by omega
  rcases hlast with hlast | rfl
  · rcases hfour with hfour | hfour
    · refine ⟨?_, .inl ?_⟩ <;>
        rcases hcentury with hc | hc | hc | hc | hc <;> rcases hyears with hy | hy | hy | hy <;> omega
    · rcases hcentury with hc | hc | hc | hc | hc <;> rcases hyears with hy | hy | hy | hy <;> omega
  · omega

/-! ## The parts of a day -/

/-- The month of a year in which a day falls. -/
def monthOfDay (day : Int) : Int := (5 * day + 2) / 153

theorem monthOfDay_bounds {day : Int} (h0 : 0 ≤ day) (h1 : day ≤ 365) :
    0 ≤ monthOfDay day ∧ monthOfDay day ≤ 11 ∧ daysBeforeMonth (monthOfDay day) ≤ day ∧
      day < daysBeforeMonth (monthOfDay day + 1) := by
  unfold monthOfDay daysBeforeMonth
  omega

/-- A day as a cycle, a year of the cycle, a month and a day of the month, all but the last counted
from zero, and the year from March. -/
structure Shifted (n cycle year month day : Int) : Prop where
  year_bounds : 0 ≤ year ∧ year ≤ 399
  month_bounds : 0 ≤ month ∧ month ≤ 11
  day_pos : 1 ≤ day
  day_le : daysBeforeMonth month + day ≤ daysBeforeMonth (month + 1)
  /-- The last month is February. -/
  february : month = 11 → day ≤ 28 ∨ (day = 29 ∧ EndsInLeapDay year)
  eq : n + epochShift = cycle * cycleDays + daysBefore year + (daysBeforeMonth month + day - 1)

/-- The date of a day given by its parts. -/
def ofShifted (cycle year month day : Int) : Date :=
  let m := if month < 10 then month + 3 else month - 9
  ⟨if m ≤ 2 then year + cycle * 400 + 1 else year + cycle * 400, m.toNat, day.toNat⟩

theorem ofDays_eq_ofShifted (n : Int) :
    ∃ cycle year month day, Shifted n cycle year month day ∧ ofDays n = ofShifted cycle year month day := by
  obtain ⟨z, hz⟩ : ∃ z, z = n + epochShift := ⟨_, rfl⟩
  obtain ⟨d, hd⟩ : ∃ d, d = z - z / cycleDays * cycleDays := ⟨_, rfl⟩
  have hd0 : 0 ≤ d := by unfold cycleDays at hd; omega
  have hd1 : d < cycleDays := by unfold cycleDays at hd ⊢; omega
  have hyear := yearOfDay_bounds hd0 hd1
  obtain ⟨hbefore, hlast⟩ := daysBefore_yearOfDay hd0 hd1
  obtain ⟨doy, hdoy⟩ : ∃ doy, doy = d - daysBefore (yearOfDay d) := ⟨_, rfl⟩
  obtain ⟨hm0, hm1, hmle, hmlt⟩ := monthOfDay_bounds (show 0 ≤ doy by omega) (by omega)
  refine ⟨z / cycleDays, yearOfDay d, monthOfDay doy, doy - daysBeforeMonth (monthOfDay doy) + 1,
    ⟨hyear, ⟨hm0, hm1⟩, by omega, by omega, fun hfeb => ?_, by omega⟩, ?_⟩
  · have hdays : daysBeforeMonth (monthOfDay doy) = 337 := by rw [hfeb]; rfl
    rcases hlast with hlast | ⟨hlast, hleap⟩
    · exact .inl (by omega)
    · exact .inr ⟨by omega, hleap⟩
  · have hparts : ofDays n = ofShifted (z / cycleDays) (yearOfDay d) (monthOfDay doy)
        (doy - daysBeforeMonth (monthOfDay doy) + 1) := by
      rw [hdoy, hd, hz]
      simp only [ofDays, ofShifted, yearOfDay, monthOfDay, daysBefore, daysBeforeMonth]
      ring_nf
    exact hparts

theorem Shifted.toDays {n cycle year month day : Int} (h : Shifted n cycle year month day) :
    (ofShifted cycle year month day).toDays = n := by
  obtain ⟨⟨hy0, hy1⟩, ⟨hm0, hm1⟩, hday, -, -, heq⟩ := h
  have hcycle : (year + cycle * 400) / 400 = cycle := by omega
  have hyear : year + cycle * 400 - cycle * 400 = year := by omega
  unfold daysBefore daysBeforeMonth at heq
  by_cases hm : month < 10
  · have hle : ¬ month + 3 ≤ 2 := by omega
    have hnat : ((month + 3).toNat : Int) = month + 3 := by omega
    have hdnat : (day.toNat : Int) = day := by omega
    have hback : month + 3 - 3 = month := by omega
    simp only [ofShifted, Date.toDays, if_pos hm, hnat, hdnat, if_neg hle, hcycle, hyear, hback, dayOfShiftedYear]
    omega
  · have hle : month - 9 ≤ 2 := by omega
    have hnat : ((month - 9).toNat : Int) = month - 9 := by omega
    have hdnat : (day.toNat : Int) = day := by omega
    have hback : month - 9 + 9 = month := by omega
    have hprev : year + cycle * 400 + 1 - 1 = year + cycle * 400 := by omega
    simp only [ofShifted, Date.toDays, if_neg hm, hnat, hdnat, if_pos hle, hcycle, hyear, hback, hprev,
      dayOfShiftedYear]
    omega

/-- The date of a day leads back to it. -/
theorem toDays_ofDays (n : Int) : (ofDays n).toDays = n := by
  obtain ⟨cycle, year, month, day, h, hdate⟩ := ofDays_eq_ofShifted n
  rw [hdate, h.toDays]

/-! ## The calendar -/

theorem isValid_iff {d : Date} : d.isValid = true ↔ (firstYear ≤ d.year ∧ d.year ≤ lastYear) ∧
    (1 ≤ d.month ∧ d.month ≤ 12) ∧ 1 ≤ d.day ∧ d.day ≤ daysInMonth d.year d.month := by
  simp [isValid, and_assoc]

theorem isLeapYear_of_endsInLeapDay {year : Int} (cycle : Int) (h : EndsInLeapDay year) :
    isLeapYear (year + cycle * 400 + 1) = true := by
  unfold EndsInLeapDay at h
  simp only [isLeapYear, Bool.and_eq_true, Bool.or_eq_true, beq_iff_eq, bne_iff_ne]
  omega

theorem daysInMonth_le (y : Int) (m : Nat) : daysInMonth y m ≤ 31 := by
  unfold daysInMonth
  split
  · split <;> omega
  · split <;> omega

/-- The parts of a day are those of a date that the calendar has. -/
theorem Shifted.day_le_daysInMonth {n cycle year month day : Int} (h : Shifted n cycle year month day) :
    1 ≤ (ofShifted cycle year month day).month ∧ (ofShifted cycle year month day).month ≤ 12 ∧
      1 ≤ (ofShifted cycle year month day).day ∧ (ofShifted cycle year month day).day ≤
        daysInMonth (ofShifted cycle year month day).year (ofShifted cycle year month day).month := by
  obtain ⟨-, ⟨hm0, hm1⟩, hday, hle, hfeb, -⟩ := h
  by_cases hlast : month = 11
  · subst hlast
    have hyear : (ofShifted cycle year 11 day).year = year + cycle * 400 + 1 := rfl
    have hmonth : (ofShifted cycle year 11 day).month = 2 := rfl
    have hdays : (ofShifted cycle year 11 day).day = day.toNat := rfl
    rw [hyear, hmonth, hdays, daysInMonth, if_pos rfl]
    rcases hfeb rfl with hshort | ⟨rfl, hleap⟩
    · refine ⟨by omega, by omega, by omega, ?_⟩
      split <;> omega
    · rw [isLeapYear_of_endsInLeapDay cycle hleap]
      decide
  · have hten : month ≤ 10 := by omega
    unfold daysBeforeMonth at hle
    interval_cases month <;> simp [ofShifted, daysInMonth] <;> omega

theorem firstDay_eq : firstDay = -96465292 := by decide

theorem lastDay_eq : lastDay = 95026236 := by decide

/-- The days that can be written fall in the years that can be written. -/
theorem Shifted.year_bounds_of {n cycle year month day : Int} (h : Shifted n cycle year month day)
    (h0 : firstDay ≤ n) (h1 : n ≤ lastDay) :
    firstYear ≤ (ofShifted cycle year month day).year ∧ (ofShifted cycle year month day).year ≤ lastYear := by
  obtain ⟨⟨hy0, hy1⟩, ⟨hm0, hm1⟩, hday, hle, -, heq⟩ := h
  have hdate : (ofShifted cycle year month day).year =
      if month < 10 then year + cycle * 400 else year + cycle * 400 + 1 := by
    by_cases hm : month < 10
    · have hnot : ¬ month + 3 ≤ 2 := by omega
      simp [ofShifted, hm, hnot]
    · have hle : month - 9 ≤ 2 := by omega
      simp [ofShifted, hm, hle]
  rw [hdate]
  unfold daysBefore daysBeforeMonth cycleDays epochShift firstYear lastYear at *
  rw [firstDay_eq] at h0
  rw [lastDay_eq] at h1
  have hlow : -656 ≤ cycle := by omega
  have hhigh : cycle ≤ 655 := by omega
  split <;> omega

/-- The date of a day that can be written is one that the calendar has. -/
theorem isValid_ofDays {n : Int} (h0 : firstDay ≤ n) (h1 : n ≤ lastDay) : (ofDays n).isValid = true := by
  obtain ⟨cycle, year, month, day, h, hdate⟩ := ofDays_eq_ofShifted n
  obtain ⟨hm0, hm1, hd0, hd1⟩ := h.day_le_daysInMonth
  obtain ⟨hy0, hy1⟩ := h.year_bounds_of h0 h1
  rw [hdate]
  exact isValid_iff.2 ⟨⟨hy0, hy1⟩, ⟨hm0, hm1⟩, hd0, hd1⟩

/-- The days of years with four digits are far from the first and the last that can be written. -/
theorem toDays_bounds {d : Date} (h : d.isValid = true) (h0 : 0 ≤ d.year) (h1 : d.year ≤ 9999) :
    -800000 ≤ d.toDays ∧ d.toDays ≤ 3000000 := by
  obtain ⟨-, ⟨hm0, hm1⟩, hd0, hd1⟩ := isValid_iff.1 h
  have hday := hd1.trans (daysInMonth_le _ _)
  by_cases hm : (d.month : Int) ≤ 2
  · simp only [toDays, dayOfShiftedYear, cycleDays, epochShift, if_pos hm]
    omega
  · simp only [toDays, dayOfShiftedYear, cycleDays, epochShift, if_neg hm]
    omega

end Tariff.Date
