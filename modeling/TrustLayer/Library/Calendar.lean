import Mathlib.Data.Nat.Find

/-!
# The proleptic Gregorian calendar

Dates of the years 1 to 9999 and times of a day, each with the proof that it
exists.  The days are numbered from 0001-01-01, the microseconds of a date and
time from the start of the day before it.
-/

namespace TrustLayer.Library

/-! ## Years and months -/

def isLeap (year : Nat) : Bool :=
  year % 4 = 0 && (year % 100 ≠ 0 || year % 400 = 0)

def daysInMonth (year month : Nat) : Nat :=
  if month = 2 then if isLeap year then 29 else 28
  else if month = 4 ∨ month = 6 ∨ month = 9 ∨ month = 11 then 30
  else 31

/-- The days before January 1st of a year. -/
def daysBeforeYear (year : Nat) : Nat :=
  (year - 1) * 365 + (year - 1) / 4 - (year - 1) / 100 + (year - 1) / 400

/-- The days of a year before the first of a month. -/
def daysBeforeMonth (year : Nat) : (month : Nat) → Nat
  | 0 | 1 => 0
  | month + 2 => daysBeforeMonth year (month + 1) + daysInMonth year (month + 1)

/-! ## Dates -/

structure Date where
  year : Nat
  month : Nat
  day : Nat
  yearFits : 1 ≤ year ∧ year ≤ 9999
  monthFits : 1 ≤ month ∧ month ≤ 12
  dayFits : 1 ≤ day ∧ day ≤ daysInMonth year month
  deriving DecidableEq

/-- `datetime.date(year, month, day)`, `none` where it raises. -/
def Date.mk? (year month day : Nat) : Option Date :=
  if yearFits : 1 ≤ year ∧ year ≤ 9999 then
    if monthFits : 1 ≤ month ∧ month ≤ 12 then
      if dayFits : 1 ≤ day ∧ day ≤ daysInMonth year month then
        some ⟨year, month, day, yearFits, monthFits, dayFits⟩
      else none
    else none
  else none

namespace Date

theorem mk?_self (date : Date) :
    mk? date.year date.month date.day = some date := by
  rw [mk?, dif_pos date.yearFits, dif_pos date.monthFits,
    dif_pos date.dayFits]

/-- `toordinal`. -/
def ordinal (date : Date) : Nat :=
  daysBeforeYear date.year + daysBeforeMonth date.year date.month + date.day

/-- The year that the day of this number falls in. -/
def yearOf (number : Nat) : Nat :=
  Nat.findGreatest (fun year => daysBeforeYear year < number) 9999

/-- The month that the day of this number in a year falls in. -/
def monthOf (year number : Nat) : Nat :=
  Nat.findGreatest (fun month => daysBeforeMonth year month < number) 12

/-- `fromordinal`. -/
def ofOrdinal? (number : Nat) : Option Date :=
  let year := yearOf number
  let inYear := number - daysBeforeYear year
  let month := monthOf year inYear
  mk? year month (inYear - daysBeforeMonth year month)

end Date

/-! ## Times of a day -/

structure Clock where
  hour : Nat
  minute : Nat
  second : Nat
  microsecond : Nat
  hourFits : hour < 24
  minuteFits : minute < 60
  secondFits : second < 60
  microsecondFits : microsecond < 1000000
  deriving DecidableEq

/-- `datetime.time(hour, minute, second, microsecond)`, `none` where it
raises. -/
def Clock.mk? (hour minute second microsecond : Nat) : Option Clock :=
  if hourFits : hour < 24 then
    if minuteFits : minute < 60 then
      if secondFits : second < 60 then
        if microsecondFits : microsecond < 1000000 then
          some ⟨hour, minute, second, microsecond, hourFits, minuteFits,
            secondFits, microsecondFits⟩
        else none
      else none
    else none
  else none

/-- The microseconds of hours, minutes, seconds and microseconds. -/
def clockMicros (hour minute second microsecond : Nat) : Nat :=
  ((hour * 60 + minute) * 60 + second) * 1000000 + microsecond

def microsPerDay : Nat := 24 * 60 * 60 * 1000000

namespace Clock

def micros (clock : Clock) : Nat :=
  clockMicros clock.hour clock.minute clock.second clock.microsecond

theorem mk?_self (clock : Clock) :
    mk? clock.hour clock.minute clock.second clock.microsecond = some clock := by
  rw [mk?, dif_pos clock.hourFits, dif_pos clock.minuteFits,
    dif_pos clock.secondFits, dif_pos clock.microsecondFits]

end Clock

/-! ## Dates with a time -/

/-- A naive `datetime`. -/
structure Naive where
  date : Date
  clock : Clock
  deriving DecidableEq

namespace Naive

/-- The wall clock in microseconds. -/
def wall (naive : Naive) : Nat :=
  naive.date.ordinal * microsPerDay + naive.clock.micros

end Naive

end TrustLayer.Library
