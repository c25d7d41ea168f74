import TableRules.Text.Digit

/-!
# Date-times

A date-time is a day of the Gregorian calendar, from year 1 to year 9999, and a time of a
24-hour day down to the microsecond. The type carries the calendar's conditions
(`DateTime.Valid`), so a value of it is always a real date-time; `DateTime.of?` is the check.
-/

namespace TableRules

/-- Whether a year has a 29th of February. -/
def isLeapYear (year : Nat) : Bool :=
  year % 4 == 0 && (year % 100 != 0 || year % 400 == 0)

/-- How many days a month has. -/
def daysInMonth (year month : Nat) : Nat :=
  if month == 2 then if isLeapYear year then 29 else 28
  else if month == 4 || month == 6 || month == 9 || month == 11 then 30
  else 31

/-- The components of a date-time, in any combination. -/
structure DateTime.Components where
  year : Nat
  month : Nat
  day : Nat
  hour : Nat
  minute : Nat
  second : Nat
  microsecond : Nat
  deriving DecidableEq, Repr

/-- The conditions of the calendar and the clock. -/
def DateTime.Valid (c : DateTime.Components) : Prop :=
  (1 ≤ c.year ∧ c.year ≤ 9999) ∧ (1 ≤ c.month ∧ c.month ≤ 12) ∧
    (1 ≤ c.day ∧ c.day ≤ daysInMonth c.year c.month) ∧
    c.hour < 24 ∧ c.minute < 60 ∧ c.second < 60 ∧ c.microsecond < 1000000

instance (c : DateTime.Components) : Decidable (DateTime.Valid c) := by
  unfold DateTime.Valid
  infer_instance

/-- A day of the calendar and a time of day. -/
structure DateTime extends DateTime.Components where
  valid : DateTime.Valid toComponents
  deriving DecidableEq

namespace DateTime

/-- The date-time with given components, if they are one. -/
def of? (c : Components) : Option DateTime :=
  if h : Valid c then some ⟨c, h⟩ else none

theorem of?_eq_some_iff {c : Components} {d : DateTime} :
    of? c = some d ↔ d.toComponents = c := by
  unfold of?
  split
  · constructor
    · intro h
      simp only [Option.some.injEq] at h
      rw [← h]
    · rintro rfl
      rfl
  · rename_i h
    constructor
    · intro h'
      simp at h'
    · rintro rfl
      exact absurd d.valid h

/-- The milliseconds of a date-time. -/
def millisecond (d : DateTime) : Nat := d.microsecond / 1000

/-- A date-time with a four-digit year and milliseconds, largest component first. -/
def text (d : DateTime) : String :=
  Text.padded 4 d.year ++ "-" ++ Text.padded 2 d.month ++ "-" ++ Text.padded 2 d.day ++ "T" ++
    Text.padded 2 d.hour ++ ":" ++ Text.padded 2 d.minute ++ ":" ++ Text.padded 2 d.second ++
    "." ++ Text.padded 3 d.millisecond

end DateTime

end TableRules
