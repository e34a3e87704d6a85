/-!
# Calendar dates

Dates of the Gregorian calendar, which is taken to hold in all years. The year zero is the year
before the year one.

## Main definitions

* `Date`: a year, a month and a day
* `Date.exists?`: the date of a year, a month and a day, if there is one
* `Date.next`, `Date.previous`: the neighbours of a date
* `Date.ofDayNumber`: the date some days after the start of the year 1970
-/

namespace ImportAtlas

/-- A date of the calendar. -/
structure Date where
  year : Int
  /-- The month, counted from one. -/
  month : Nat
  /-- The day of the month, counted from one. -/
  day : Nat
  deriving DecidableEq, Repr

namespace Date

/-- The first year of the calendar in use. -/
def firstYear : Int := -262143

/-- The last year of the calendar in use. -/
def lastYear : Int := 262142

/-- Whether a year has a 29th of February. -/
def isLeapYear (year : Int) : Bool :=
  year % 4 == 0 && (year % 100 != 0 || year % 400 == 0)

/-- The number of days of a month. -/
def daysInMonth (year : Int) (month : Nat) : Nat :=
  if month = 2 then (if isLeapYear year then 29 else 28)
  else if month = 4 ∨ month = 6 ∨ month = 9 ∨ month = 11 then 30
  else 31

/-- The date of a year, a month from one to twelve and a day, if there is one. -/
def exists? (year : Int) (month day : Nat) : Option Date :=
  if firstYear ≤ year ∧ year ≤ lastYear ∧ 1 ≤ month ∧ month ≤ 12 ∧ 1 ≤ day ∧
      day ≤ daysInMonth year month then
    some ⟨year, month, day⟩
  else none

/-- The day after a date. -/
def next (date : Date) : Date :=
  if date.day < daysInMonth date.year date.month then { date with day := date.day + 1 }
  else if date.month < 12 then ⟨date.year, date.month + 1, 1⟩
  else ⟨date.year + 1, 1, 1⟩

/-- The day before a date. -/
def previous (date : Date) : Date :=
  if 1 < date.day then { date with day := date.day - 1 }
  else if 1 < date.month then
    ⟨date.year, date.month - 1, daysInMonth date.year (date.month - 1)⟩
  else ⟨date.year - 1, 12, 31⟩

/-- The date a number of days after the first of January 1970. -/
def ofDayNumber (days : Nat) : Date :=
  days.repeat next ⟨1970, 1, 1⟩

/-- Whether the year of a date is one of the calendar in use. -/
def inRange (date : Date) : Bool :=
  firstYear ≤ date.year && date.year ≤ lastYear

end Date

end ImportAtlas
