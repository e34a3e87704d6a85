import ImportAtlas.Decimal.Binary
import ImportAtlas.Time.Date

/-!
# Points in time

An instant is a date with a time of day of universal time. A leap second is kept as the second
number 60 of its minute.

## Main definitions

* `Instant`: a point in time
* `Instant.ofNanoseconds`: the instant some time after the start of the year 1970
* `Instant.shift?`: the instant some hours and minutes earlier or later
* `Instant.format`: an instant in the form of RFC 3339
-/

namespace ImportAtlas

/-- A point in time. -/
structure Instant where
  date : Date
  /-- The minutes since midnight. -/
  minute : Nat
  /-- The second of the minute, 60 for a leap second. -/
  second : Nat
  nanosecond : Nat := 0
  deriving DecidableEq, Repr

namespace Instant

/-- The instant a number of nanoseconds after the start of the year 1970, leap seconds left out. -/
def ofNanoseconds (nanoseconds : Nat) : Instant :=
  let seconds := nanoseconds / 1000000000
  { date := .ofDayNumber (seconds / 86400)
    minute := seconds % 86400 / 60
    second := seconds % 60
    nanosecond := nanoseconds % 1000000000 }

/-- The number of minutes of a day. -/
def minutesPerDay : Int := 1440

/-- The instant a number of minutes later, less than a day; none if it leaves the calendar. -/
def shift? (instant : Instant) (minutes : Int) : Option Instant :=
  let minute := (instant.minute : Int) + minutes
  let date :=
    if minute < 0 then instant.date.previous
    else if minutesPerDay ≤ minute then instant.date.next
    else instant.date
  if date.inRange then some { instant with date, minute := (minute % minutesPerDay).toNat }
  else none

/-- A whole number with at least two digits. -/
def twoDigits (n : Nat) : String := Decimal.padLeft '0' 2 (Text.natural n)

/-- A year with at least four digits, and with a sign unless it has just four. -/
def formatYear (year : Int) : String :=
  let digits := Decimal.padLeft '0' 4 (Text.natural year.natAbs)
  if year < 0 then "-" ++ digits
  else if 9999 < year then "+" ++ digits
  else digits

/-- The fraction of a second with as many digits as it needs, in groups of three. -/
def formatFraction (nanosecond : Nat) : String :=
  if nanosecond = 0 then ""
  else if nanosecond % 1000000 = 0 then
    "." ++ Decimal.padLeft '0' 3 (Text.natural (nanosecond / 1000000))
  else if nanosecond % 1000 = 0 then
    "." ++ Decimal.padLeft '0' 6 (Text.natural (nanosecond / 1000))
  else "." ++ Decimal.padLeft '0' 9 (Text.natural nanosecond)

/-- An instant in the form of RFC 3339, with `zone` as its mark of universal time. -/
def formatWith (zone : String) (instant : Instant) : String :=
  formatYear instant.date.year ++ "-" ++ twoDigits instant.date.month ++ "-" ++
    twoDigits instant.date.day ++ "T" ++ twoDigits (instant.minute / 60) ++ ":" ++
    twoDigits (instant.minute % 60) ++ ":" ++ twoDigits instant.second ++
    formatFraction instant.nanosecond ++ zone

/-- The form of an instant in documents. -/
def format (instant : Instant) : String := instant.formatWith "Z"

/-- The form of an instant in texts for readers. -/
def formatOffset (instant : Instant) : String := instant.formatWith "+00:00"

end Instant

end ImportAtlas
