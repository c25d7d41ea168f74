import TableRules.Calendar.DateTime

/-!
# Instants

An instant is a number of seconds since the start of 1970. Its date-time is found by counting days
in periods of 400 years, each of which has the same number of days, from the first of March of
year 0: so a leap day is the last day of its year.
-/

namespace TableRules.DateTime

/-- The days from the first of March of year 0 to the start of 1970. -/
def daysBefore1970 : Int := 719468

/-- The days of 400 years. -/
def daysOfPeriod : Int := 146097

/-- The year of a period, from March to February, that holds a day of the period. -/
def yearOfPeriod (day : Nat) : Nat :=
  (day - day / 1460 + day / 36524 - day / 146096) / 365

/-- The components of an instant. -/
def ofInstant (seconds : Int) : Components :=
  let days := seconds.fdiv 86400 + daysBefore1970
  let second := (seconds.fmod 86400).toNat
  let day := (days.fmod daysOfPeriod).toNat
  let yearInPeriod := yearOfPeriod day
  let dayOfYear := day - (365 * yearInPeriod + yearInPeriod / 4 - yearInPeriod / 100)
  let monthFromMarch := (5 * dayOfYear + 2) / 153
  let month := if monthFromMarch < 10 then monthFromMarch + 3 else monthFromMarch - 9
  let year := yearInPeriod + 400 * days.fdiv daysOfPeriod + (if month ≤ 2 then 1 else 0)
  ⟨year.toNat, month, dayOfYear - (153 * monthFromMarch + 2) / 5 + 1, second / 3600,
    second / 60 % 60, second % 60, 0⟩

end TableRules.DateTime
