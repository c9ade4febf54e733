import Mathlib
import SearchRelay.Time.Calendar

/-!
Every number of days is the number of one date of the calendar. An era of 400 years is cut into
centuries: once the century of a day is fixed, its year is a plain division, and the last day of
a year is the leap day.
-/

namespace SearchRelay.Date

/-- The year of an era that a day of it lies in. -/
def yearOfDay (day : Int) : Int := (day - day / 1460 + day / 36524 - day / 146096) / 365

/-- The day within its year, counted from the first of March on. -/
def dayOfYear (day : Int) : Int :=
  day - (365 * yearOfDay day + yearOfDay day / 4 - yearOfDay day / 100)

section
variable {day : Int} (low : 0 ≤ day) (high : day < daysPerEra)
include low high

theorem yearOfDay_cases :
    (∃ century, 0 ≤ century ∧ century ≤ 3 ∧ day / 36524 = century ∧
      yearOfDay day = (day - day / 1460 + century) / 365 ∧ yearOfDay day / 100 = century) ∨
    yearOfDay day = 399 ∧ dayOfYear day = 365 := by
  unfold daysPerEra at high
  have lastDay : day / 146096 = 0 ∨ day = 146096 := by omega
  rcases lastDay with inside | rfl
  · have centuries : day / 36524 = 0 ∨ day / 36524 = 1 ∨ day / 36524 = 2 ∨ day / 36524 = 3 := by
      omega
    have year (century : Int) (known : day / 36524 = century) :
        yearOfDay day = (day - day / 1460 + century) / 365 := by
      rw [yearOfDay, inside, known, sub_zero]
    apply Or.inl
    rcases centuries with known | known | known | known <;>
      exact ⟨_, by omega, by omega, known, year _ known, by rw [year _ known]; omega⟩
  · exact Or.inr (by decide)

theorem yearOfDay_bounds : 0 ≤ yearOfDay day ∧ yearOfDay day ≤ 399 := by
  rcases yearOfDay_cases low high with ⟨century, _, _, _, _, known⟩ | ⟨year, _⟩ <;> omega

theorem dayOfYear_bounds : 0 ≤ dayOfYear day ∧ dayOfYear day ≤ 365 := by
  rcases yearOfDay_cases low high with ⟨century, first, last, known, year, hundred⟩ | ⟨_, leap⟩
  · unfold dayOfYear
    rw [hundred]
    have : century = 0 ∨ century = 1 ∨ century = 2 ∨ century = 3 := by omega
    rcases this with rfl | rfl | rfl | rfl <;> omega
  · omega

/-- A year with a day more than 365 ends with the February of a leap year. -/
theorem isLeap_of_dayOfYear (long : dayOfYear day = 365) (era : Int) :
    isLeap (yearOfDay day + era * 400 + 1) := by
  have leap : (yearOfDay day + 1) % 4 = 0 ∧
      ((yearOfDay day + 1) % 100 ≠ 0 ∨ yearOfDay day = 399) := by
    rcases yearOfDay_cases low high with ⟨century, first, last, known, year, hundred⟩ | ⟨last, _⟩
    · unfold dayOfYear at long
      rw [hundred] at long
      refine ⟨?_, by omega⟩
      -- in a common year there are as many leap days before a day as there are whole cycles
      by_contra common
      have early : yearOfDay day ≤ 4 * (yearOfDay day / 4) + 2 := by omega
      have began : 1460 * (yearOfDay day / 4) ≤ day := by omega
      have ended : day < 1460 * (yearOfDay day / 4) + 1460 := by omega
      have cycle : day / 1460 = yearOfDay day / 4 := by omega
      omega
    · omega
  have fourth : (yearOfDay day + era * 400 + 1) % 4 = 0 := by omega
  have hundredth : (yearOfDay day + era * 400 + 1) % 100 ≠ 0 ∨
      (yearOfDay day + era * 400 + 1) % 400 = 0 := by omega
  simpa [isLeap, fourth] using hundredth

end

/-! ### Months -/

/-- The date of a day in a year that begins with March. -/
def ofMarch (year day : Int) : Date :=
  let month := (5 * day + 2) / 153
  let dayOfMonth := (day - (153 * month + 2) / 5 + 1).toNat
  if month < 10 then ⟨year, (month + 3).toNat, dayOfMonth⟩
  else ⟨year + 1, (month - 9).toNat, dayOfMonth⟩

theorem month_bounds {day month : Int} (low : 0 ≤ day) (high : day ≤ 365)
    (is : (5 * day + 2) / 153 = month) :
    0 ≤ month ∧ month ≤ 11 ∧ (153 * month + 2) / 5 ≤ day := by
  omega

theorem toDays_ofMarch (year : Int) {day : Int} (low : 0 ≤ day) (high : day ≤ 365) :
    (ofMarch year day).toDays =
      year / 400 * daysPerEra + (year % 400 * 365 + year % 400 / 4 - year % 400 / 100 + day) -
        epochOffset := by
  unfold ofMarch
  generalize is : (5 * day + 2) / 153 = month
  obtain ⟨first, last, begun⟩ := month_bounds low high is
  have dayOfMonth : ((day - (153 * month + 2) / 5 + 1).toNat : Int) =
      day - (153 * month + 2) / 5 + 1 := Int.toNat_of_nonneg (by omega)
  dsimp only
  split
  next spring =>
    have number : ((month + 3).toNat : Int) = month + 3 := Int.toNat_of_nonneg (by omega)
    simp only [toDays, if_neg (show ¬(month + 3).toNat ≤ 2 by omega), number, dayOfMonth]
    rw [show month + 3 - 3 = month by omega]
    omega
  next winter =>
    have number : ((month - 9).toNat : Int) = month - 9 := Int.toNat_of_nonneg (by omega)
    simp only [toDays, if_pos (show (month - 9).toNat ≤ 2 by omega), number, dayOfMonth]
    rw [show month - 9 + 9 = month by omega, show year + 1 - 1 = year by omega]
    omega

theorem isValid_ofMarch {year day : Int} (low : 0 ≤ day) (high : day ≤ 365)
    (leap : day = 365 → isLeap (year + 1)) : (ofMarch year day).isValid := by
  unfold ofMarch
  generalize is : (5 * day + 2) / 153 = month
  have months : month = 0 ∨ month = 1 ∨ month = 2 ∨ month = 3 ∨ month = 4 ∨ month = 5 ∨ month = 6 ∨
      month = 7 ∨ month = 8 ∨ month = 9 ∨ month = 10 ∨ month = 11 := by omega
  rcases months with rfl | rfl | rfl | rfl | rfl | rfl | rfl | rfl | rfl | rfl | rfl | rfl
  case' inr.inr.inr.inr.inr.inr.inr.inr.inr.inr.inr =>
    by_cases long : day = 365
    · simp [isValid, daysIn, leap long, long]
  all_goals
    simp [isValid, daysIn]
    omega

/-! ### Days -/

theorem ofDays_eq (days : Int) :
    ofDays days =
      ofMarch (yearOfDay ((days + epochOffset) % daysPerEra) +
          (days + epochOffset) / daysPerEra * 400)
        (dayOfYear ((days + epochOffset) % daysPerEra)) := rfl

theorem toDays_ofDays (days : Int) : (ofDays days).toDays = days := by
  have split : (days + epochOffset) / daysPerEra * daysPerEra +
      (days + epochOffset) % daysPerEra = days + epochOffset := Int.ediv_mul_add_emod _ _
  have low : 0 ≤ (days + epochOffset) % daysPerEra := Int.emod_nonneg _ (by decide)
  have high : (days + epochOffset) % daysPerEra < daysPerEra := Int.emod_lt_of_pos _ (by decide)
  rw [ofDays_eq]
  generalize (days + epochOffset) / daysPerEra = era at split
  generalize (days + epochOffset) % daysPerEra = day at split low high
  obtain ⟨first, last⟩ := dayOfYear_bounds low high
  obtain ⟨nonneg, small⟩ := yearOfDay_bounds low high
  have eras : (yearOfDay day + era * 400) / 400 = era := by omega
  have years : (yearOfDay day + era * 400) % 400 = yearOfDay day := by omega
  have back : dayOfYear day + (365 * yearOfDay day + yearOfDay day / 4 - yearOfDay day / 100) = day :=
    Int.sub_add_cancel _ _
  rw [toDays_ofMarch _ first last, eras, years]
  omega

theorem isValid_ofDays (days : Int) : (ofDays days).isValid := by
  have low : 0 ≤ (days + epochOffset) % daysPerEra := Int.emod_nonneg _ (by decide)
  have high : (days + epochOffset) % daysPerEra < daysPerEra := Int.emod_lt_of_pos _ (by decide)
  rw [ofDays_eq]
  obtain ⟨first, last⟩ := dayOfYear_bounds low high
  exact isValid_ofMarch first last fun long => isLeap_of_dayOfYear low high long _

theorem bounds_of_isValid {date : Date} (valid : date.isValid) :
    1 ≤ date.month ∧ date.month ≤ 12 ∧ 1 ≤ date.day ∧ date.day ≤ 31 := by
  have short : daysIn date.year date.month ≤ 31 := by
    unfold daysIn
    split_ifs <;> decide
  simp only [isValid, Bool.and_eq_true, decide_eq_true_eq] at valid
  omega

end SearchRelay.Date
