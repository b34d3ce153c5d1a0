/-
The Gregorian calendar, without a first or a last day.  Days are counted from
the first of January 1970 and months from January of the year 0.
-/
import Mathlib

namespace Calendar

/-- The days before a year, when years begin in March, so that a leap day is the
last day of its year. -/
def yearStart (year : ℤ) : ℤ := 365 * year + year / 4 - year / 100 + year / 400

/-- The days of such a year before one of its months. -/
def daysBefore (rest : ℤ) : ℤ := (153 * rest + 2) / 5

/-- The first day of a month. -/
def monthStart (month : ℤ) : ℤ :=
  yearStart ((month - 2) / 12) + daysBefore ((month - 2) % 12) - 719468

def monthLength (month : ℤ) : ℤ := monthStart (month + 1) - monthStart month

/-- The month of a day: the average length of a month gives it up to one. -/
def monthOf (day : ℤ) : ℤ :=
  let guess := (day + 719468) * 4800 / 146097 + 2
  if day < monthStart guess then guess - 1
  else if monthStart (guess + 1) ≤ day then guess + 1
  else guess

def dayOfMonth (day : ℤ) : ℤ := day - monthStart (monthOf day) + 1

theorem yearLength_bounds (year : ℤ) :
    365 ≤ yearStart (year + 1) - yearStart year ∧
      yearStart (year + 1) - yearStart year ≤ 366 := by
  simp only [yearStart]
  omega

theorem monthLength_bounds (month : ℤ) :
    28 ≤ monthLength month ∧ monthLength month ≤ 31 := by
  have hrest : 0 ≤ (month - 2) % 12 ∧ (month - 2) % 12 < 12 := by omega
  rw [monthLength, monthStart, monthStart]
  by_cases hlast : (month - 2) % 12 = 11
  · have hyear := yearLength_bounds ((month - 2) / 12)
    rw [hlast, show (month + 1 - 2) / 12 = (month - 2) / 12 + 1 by omega,
      show (month + 1 - 2) % 12 = 0 by omega]
    simp only [daysBefore]
    omega
  · rw [show (month + 1 - 2) / 12 = (month - 2) / 12 by omega,
      show (month + 1 - 2) % 12 = (month - 2) % 12 + 1 by omega]
    simp only [daysBefore]
    omega

theorem monthStart_strictMono : StrictMono monthStart := by
  apply strictMono_int_of_lt_succ
  intro month
  have hbounds := (monthLength_bounds month).1
  rw [monthLength] at hbounds
  omega

theorem guess_le (day : ℤ) :
    monthStart ((day + 719468) * 4800 / 146097 + 2 - 1) ≤ day := by
  simp only [monthStart, yearStart, daysBefore]
  omega

theorem lt_guess (day : ℤ) :
    day < monthStart ((day + 719468) * 4800 / 146097 + 2 + 2) := by
  simp only [monthStart, yearStart, daysBefore]
  omega

theorem monthOf_spec (day : ℤ) :
    monthStart (monthOf day) ≤ day ∧ day < monthStart (monthOf day + 1) := by
  have hlow := guess_le day
  have hhigh := lt_guess day
  simp only [monthOf]
  generalize (day + 719468) * 4800 / 146097 + 2 = guess at *
  split
  · rename_i hbefore
    rw [sub_add_cancel]
    exact ⟨hlow, hbefore⟩
  · rename_i hfrom
    split
    · rename_i hafter
      rw [show guess + 1 + 1 = guess + 2 by ring]
      exact ⟨hafter, hhigh⟩
    · rename_i huntil
      exact ⟨not_lt.1 hfrom, not_le.1 huntil⟩

theorem monthOf_eq {day month : ℤ} (hstart : monthStart month ≤ day)
    (hend : day < monthStart (month + 1)) : monthOf day = month := by
  obtain ⟨hfrom, huntil⟩ := monthOf_spec day
  have hlow := monthStart_strictMono.lt_iff_lt.1 (hfrom.trans_lt hend)
  have hhigh := monthStart_strictMono.lt_iff_lt.1 (hstart.trans_lt huntil)
  omega

/-- The last day of a month, as the day before the next month. -/
theorem dayOfMonth_last (month : ℤ) :
    dayOfMonth (monthStart (month + 1) - 1) = monthLength month := by
  have hbounds := (monthLength_bounds month).1
  rw [monthLength] at hbounds ⊢
  have hmonth : monthOf (monthStart (month + 1) - 1) = month :=
    monthOf_eq (by omega) (by omega)
  rw [dayOfMonth, hmonth]
  ring

end Calendar
