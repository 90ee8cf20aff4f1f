/-
# `Bluestone.Library.Calendar` — days and dates

The Gregorian calendar carried to all years, with days counted from 1 January of year 1.
Years are counted from 1 March inside, so that the day a leap year adds is its last, and
in cycles of 400 years.

`dayNumber_date` says that a day is the day of its date, `date_valid` that a date is one
the calendar has.
-/
import Mathlib.Algebra.Group.Int.Defs

namespace Calendar

structure Date where
  year : Int
  month : Nat
  day : Nat
  deriving DecidableEq, Repr

def isLeap (year : Int) : Bool := year % 4 = 0 && (year % 100 ≠ 0 || year % 400 = 0)

/-- `daysIn`: how many days a month has. -/
def daysIn (month : Nat) (year : Int) : Nat :=
  if month = 2 then if isLeap year then 29 else 28
  else if month = 4 ∨ month = 6 ∨ month = 9 ∨ month = 11 then 30
  else 31

theorem daysIn_le (month : Nat) (year : Int) : daysIn month year ≤ 31 := by
  rw [daysIn]
  split
  all_goals split <;> decide

/-! ## From a day to its date -/

/-- Days from 1 March of year 0 to 1 January of year 1. -/
def january : Int := 306

/-- The day within its cycle of 400 years. -/
def dayOfCycle (days : Int) : Int := (days + january) % 146097

/-- The century within the cycle.  The last has a day more than the others. -/
def century (doc : Int) : Int := min (doc / 36524) 3

def dayOfCentury (doc : Int) : Int := doc - century doc * 36524

/-- The year within four years, of which the last has a day more than the others. -/
def yearOfFour (doc : Int) : Int := min (dayOfCentury doc % 1461 / 365) 3

def yearOfCycle (doc : Int) : Int :=
  century doc * 100 + dayOfCentury doc / 1461 * 4 + yearOfFour doc

def dayOfYear (doc : Int) : Int := dayOfCentury doc % 1461 - yearOfFour doc * 365

/-- The month counted from March: five months have 153 days. -/
def monthOfYear (doy : Int) : Int := (5 * doy + 2) / 153

def dayOfMonth (doy : Int) : Int := doy - (153 * monthOfYear doy + 2) / 5 + 1

def date (days : Int) : Date :=
  let doc := dayOfCycle days
  let doy := dayOfYear doc
  let march := monthOfYear doy
  let year := (days + january) / 146097 * 400 + yearOfCycle doc
  if march < 10 then ⟨year, (march + 3).toNat, (dayOfMonth doy).toNat⟩
  else ⟨year + 1, (march - 9).toNat, (dayOfMonth doy).toNat⟩

/-! ## From a date to its day -/

/-- The first day of a year that begins in March. -/
def yearStart (year : Int) : Int :=
  year / 400 * 146097 + (year % 400 * 365 + year % 400 / 4 - year % 400 / 100)

/-- The first day of a month counted from March. -/
def monthStart (march : Int) : Int := (153 * march + 2) / 5

def dayNumber (d : Date) : Int :=
  if 2 < d.month then yearStart d.year + monthStart (d.month - 3) + (d.day - 1) - january
  else yearStart (d.year - 1) + monthStart (d.month + 9) + (d.day - 1) - january

/-! ## Bounds -/

theorem dayOfCycle_bounds (days : Int) : 0 ≤ dayOfCycle days ∧ dayOfCycle days < 146097 := by
  rw [dayOfCycle]
  omega

variable {doc : Int}

theorem yearOfCycle_bounds (h : 0 ≤ doc ∧ doc < 146097) :
    0 ≤ yearOfCycle doc ∧ yearOfCycle doc < 400 := by
  rw [yearOfCycle, yearOfFour, dayOfCentury, century]
  omega

theorem dayOfYear_bounds (doc : Int) : 0 ≤ dayOfYear doc ∧ dayOfYear doc ≤ 365 := by
  rw [dayOfYear, yearOfFour]
  omega

theorem dayOfCentury_bounds (h : 0 ≤ doc ∧ doc < 146097) : 0 ≤ dayOfCentury doc ∧ dayOfCentury doc ≤ 36524 ∧
    (dayOfCentury doc = 36524 → century doc = 3) := by
  rw [dayOfCentury, century]
  omega

theorem isLeap_of_dayOfYear (h : 0 ≤ doc ∧ doc < 146097) (hlast : dayOfYear doc = 365)
    (cycle : Int) : isLeap (cycle * 400 + yearOfCycle doc + 1) := by
  obtain ⟨hlow, hhigh, hthird⟩ := dayOfCentury_bounds h
  rw [dayOfYear, yearOfFour] at hlast
  have hday : dayOfCentury doc % 1461 = 1460 := by omega
  have hfour : yearOfFour doc = 3 := by
    rw [yearOfFour]
    omega
  rw [yearOfCycle, hfour]
  generalize hy : cycle * 400 + (_ : Int) + 1 = year
  have h4 : year % 4 = 0 := by omega
  have h100 : year % 100 ≠ 0 ∨ year % 400 = 0 := by omega
  simpa [isLeap, h4] using h100

/-! ## The two directions -/

theorem day_of_year (h : 0 ≤ doc ∧ doc < 146097) :
    yearOfCycle doc * 365 + yearOfCycle doc / 4 - yearOfCycle doc / 100 + dayOfYear doc = doc := by
  obtain ⟨hlow, hhigh, -⟩ := dayOfCentury_bounds h
  have hfour : 0 ≤ yearOfFour doc ∧ yearOfFour doc ≤ 3 := by
    rw [yearOfFour]
    omega
  have hdoc : doc = century doc * 36524 + dayOfCentury doc := by
    rw [dayOfCentury]
    omega
  rw [dayOfYear, yearOfCycle]
  omega

theorem yearStart_cycle (cycle : Int) {year : Int} (h : 0 ≤ year ∧ year < 400) :
    yearStart (cycle * 400 + year) = cycle * 146097 + (year * 365 + year / 4 - year / 100) := by
  have hmod : (cycle * 400 + year) % 400 = year := by omega
  have hdiv : (cycle * 400 + year) / 400 = cycle := by omega
  rw [yearStart, hmod, hdiv]

theorem monthOfYear_bounds {doy : Int} (h : 0 ≤ doy ∧ doy ≤ 365) :
    0 ≤ monthOfYear doy ∧ monthOfYear doy ≤ 11 ∧ 1 ≤ dayOfMonth doy ∧ dayOfMonth doy ≤ 31 := by
  rw [dayOfMonth, monthOfYear]
  omega

theorem dayOfMonth_short {doy : Int} (h : 0 ≤ doy ∧ doy ≤ 365) :
    ((monthOfYear doy = 1 ∨ monthOfYear doy = 3 ∨ monthOfYear doy = 6 ∨ monthOfYear doy = 8) →
    dayOfMonth doy ≤ 30) ∧ (monthOfYear doy = 11 → dayOfMonth doy ≤ 29 ∧ (dayOfMonth doy = 29 →
    doy = 365)) := by
  rw [dayOfMonth, monthOfYear]
  omega

theorem dayNumber_date (days : Int) : dayNumber (date days) = days := by
  have hdoc := dayOfCycle_bounds days
  have hyear := yearStart_cycle ((days + january) / 146097) (yearOfCycle_bounds hdoc)
  have hstart := day_of_year hdoc
  have hmonth := monthOfYear_bounds (dayOfYear_bounds (dayOfCycle days))
  have hdays : days + january = (days + january) / 146097 * 146097 + dayOfCycle days := by
    rw [dayOfCycle]
    omega
  have hfirst : ∀ doy, monthStart (monthOfYear doy) + (dayOfMonth doy - 1) = doy := by
    intro doy
    rw [monthStart, dayOfMonth]
    omega
  have hdoy := hfirst (dayOfYear (dayOfCycle days))
  rw [date]
  split
  next hlate =>
    rw [dayNumber, if_pos (by dsimp only; omega)]
    dsimp only
    rw [hyear, Int.toNat_of_nonneg (by omega), Int.toNat_of_nonneg (by omega), Int.add_sub_cancel]
    omega
  next hearly =>
    rw [dayNumber, if_neg (by dsimp only; omega)]
    dsimp only
    rw [Int.add_sub_cancel, hyear, Int.toNat_of_nonneg (by omega), Int.toNat_of_nonneg (by omega),
      Int.sub_add_cancel]
    omega

theorem date_valid (days : Int) : 1 ≤ (date days).month ∧ (date days).month ≤ 12 ∧ 1 ≤ (date days).day ∧
    (date days).day ≤ daysIn (date days).month (date days).year := by
  have hdoy := dayOfYear_bounds (dayOfCycle days)
  have hmonth := monthOfYear_bounds hdoy
  have hshort := dayOfMonth_short hdoy
  rw [date]
  split
  next hlate =>
    dsimp only
    refine ⟨by omega, by omega, by omega, ?_⟩
    rw [daysIn, if_neg (by omega)]
    split <;> omega
  next hearly =>
    dsimp only
    refine ⟨by omega, by omega, by omega, ?_⟩
    rw [daysIn]
    split
    next hfeb =>
      -- the year that ends with this February has 29 days in it only when it is a leap year
      split
      · omega
      next hcommon =>
        have hlast : dayOfYear (dayOfCycle days) ≠ 365 := fun heq =>
          hcommon (isLeap_of_dayOfYear (dayOfCycle_bounds days) heq _)
        omega
    · split <;> omega

end Calendar
