import Mathlib.Tactic.Basic
/-!
# Civil dates

The proleptic Gregorian calendar over days counted from 1970-01-01, and the ISO
week. Years begin in March while a date is worked out, so that the leap day comes
last: of a year, of its four years, of its century and of its era of 400 years.
-/

namespace Hyeboard

structure CivilDate where
  year : Int
  month : Int
  day : Int
deriving DecidableEq

namespace CivilDate

/-- The days of an era before one of its years. -/
def daysBeforeYear (year : Int) : Int := year / 100 * 36524 + year % 100 / 4 * 1461 + year % 4 * 365

/-- The days of a year before one of its months; March is month 0. -/
def daysBeforeMonth (month : Int) : Int := (153 * month + 2) / 5

def centuryOf (dayOfEra : Int) : Int := min 3 (dayOfEra / 36524)

def yearOfCentury (dayOfCentury : Int) : Int := dayOfCentury / 1461 * 4 + min 3 (dayOfCentury % 1461 / 365)

/-- The year of the era that holds one of its days. -/
def yearOf (dayOfEra : Int) : Int := centuryOf dayOfEra * 100 + yearOfCentury (dayOfEra - centuryOf dayOfEra * 36524)

/-- A day of a year that begins in March. -/
def ofDayOfYear (year dayOfYear : Int) : CivilDate :=
  let month := (5 * dayOfYear + 2) / 153
  { year := if month < 10 then year else year + 1
    month := if month < 10 then month + 3 else month - 9
    day := dayOfYear - daysBeforeMonth month + 1 }

def ofDays (days : Int) : CivilDate :=
  let dayOfEra := (days + 719468) % 146097
  ofDayOfYear ((days + 719468) / 146097 * 400 + yearOf dayOfEra) (dayOfEra - daysBeforeYear (yearOf dayOfEra))

def toDays (date : CivilDate) : Int :=
  let year := if date.month ≤ 2 then date.year - 1 else date.year
  year / 400 * 146097 + daysBeforeYear (year % 400) + daysBeforeMonth ((date.month + 9) % 12) + (date.day - 1) - 719468

theorem yearOfCentury_bounds {day : Int} (h0 : 0 ≤ day) (h : day ≤ 36524) :
    0 ≤ yearOfCentury day ∧ yearOfCentury day < 100 ∧
      0 ≤ day - (yearOfCentury day / 4 * 1461 + yearOfCentury day % 4 * 365) ∧
      day - (yearOfCentury day / 4 * 1461 + yearOfCentury day % 4 * 365) ≤ 365 := by
  unfold yearOfCentury
  have hcycle : (day / 1461 * 4 + min 3 (day % 1461 / 365)) / 4 = day / 1461 := by omega
  have hyear : (day / 1461 * 4 + min 3 (day % 1461 / 365)) % 4 = min 3 (day % 1461 / 365) := by omega
  rw [hcycle, hyear]
  omega

theorem centuryOf_bounds {dayOfEra : Int} (h0 : 0 ≤ dayOfEra) (h : dayOfEra < 146097) :
    0 ≤ centuryOf dayOfEra ∧ centuryOf dayOfEra ≤ 3 ∧
      0 ≤ dayOfEra - centuryOf dayOfEra * 36524 ∧ dayOfEra - centuryOf dayOfEra * 36524 ≤ 36524 := by
  unfold centuryOf
  omega

theorem yearOf_bounds {dayOfEra : Int} (h0 : 0 ≤ dayOfEra) (h : dayOfEra < 146097) :
    0 ≤ yearOf dayOfEra ∧ yearOf dayOfEra < 400 ∧
      0 ≤ dayOfEra - daysBeforeYear (yearOf dayOfEra) ∧ dayOfEra - daysBeforeYear (yearOf dayOfEra) ≤ 365 := by
  obtain ⟨hc0, hc3, hd0, hd⟩ := centuryOf_bounds h0 h
  obtain ⟨hy0, hy, hrest⟩ := yearOfCentury_bounds hd0 hd
  unfold yearOf daysBeforeYear
  generalize centuryOf dayOfEra = century at *
  generalize yearOfCentury (dayOfEra - century * 36524) = year at *
  have hcentury : (century * 100 + year) / 100 = century := by omega
  have hyear : (century * 100 + year) % 100 = year := by omega
  have hleap : (century * 100 + year) % 4 = year % 4 := by omega
  rw [hcentury, hyear, hleap]
  omega

theorem toDays_ofDayOfYear {year dayOfYear : Int} (h0 : 0 ≤ dayOfYear) (h : dayOfYear ≤ 365) :
    (ofDayOfYear year dayOfYear).toDays = year / 400 * 146097 + daysBeforeYear (year % 400) + dayOfYear - 719468 := by
  unfold toDays ofDayOfYear
  have hmonths : 0 ≤ (5 * dayOfYear + 2) / 153 ∧ (5 * dayOfYear + 2) / 153 ≤ 11 := by omega
  generalize (5 * dayOfYear + 2) / 153 = month at *
  by_cases hspring : month < 10
  · have hmarch : (month + 3 + 9) % 12 = month := by omega
    have hlate : ¬ month + 3 ≤ 2 := by omega
    simp only [hspring, if_true, hmarch, hlate, if_false]
    omega
  · have hmarch : (month - 9 + 9) % 12 = month := by omega
    have hearly : month - 9 ≤ 2 := by omega
    have hyear : year + 1 - 1 = year := by omega
    simp only [hspring, if_false, hmarch, hearly, if_true, hyear]
    omega

/-- A date is that of its day. -/
theorem toDays_ofDays (days : Int) : (ofDays days).toDays = days := by
  have h0 := Int.emod_nonneg (days + 719468) (show (146097 : Int) ≠ 0 by decide)
  have h := Int.emod_lt_of_pos (days + 719468) (show (0 : Int) < 146097 by decide)
  obtain ⟨hy0, hy, hd0, hd⟩ := yearOf_bounds h0 h
  rw [ofDays, toDays_ofDayOfYear hd0 hd]
  have hera : ((days + 719468) / 146097 * 400 + yearOf ((days + 719468) % 146097)) / 400 = (days + 719468) / 146097 := by omega
  have hyear : ((days + 719468) / 146097 * 400 + yearOf ((days + 719468) % 146097)) % 400 =
      yearOf ((days + 719468) % 146097) := by omega
  rw [hera, hyear]
  omega

/-- A coarse bound on the days of the years with at most four digits. -/
theorem days_bounds {days : Int} (h0 : 0 ≤ (ofDays days).year) (h : (ofDays days).year ≤ 9999) :
    -1000000 ≤ days ∧ days ≤ 4000000 := by
  have hpos := Int.emod_nonneg (days + 719468) (show (146097 : Int) ≠ 0 by decide)
  have hlt := Int.emod_lt_of_pos (days + 719468) (show (0 : Int) < 146097 by decide)
  obtain ⟨hy0, hy, -, -⟩ := yearOf_bounds hpos hlt
  simp only [ofDays, ofDayOfYear] at h0 h
  split at h0 <;> omega

/-- Monday is 1, Sunday 7. -/
def isoWeekday (days : Int) : Int := (days + 3) % 7 + 1

/-- The weeks from Monday to Sunday. -/
def isoWeek (days : Int) : Int := (days + 3) / 7

end CivilDate
end Hyeboard
