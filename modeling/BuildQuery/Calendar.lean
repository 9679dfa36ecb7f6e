import BuildQuery.Decimal.Digits

/-!
# BuildQuery — dates and minutes

Times are shown as a date of the Gregorian calendar and a minute of the day in universal time. The
calendar goes on in both directions without a gap, with a year 0 before the year 1. A time is a
number of milliseconds since the beginning of 1970; it is shown as the minute in which it lies, and
a time outside the years from `firstYear` to `lastYear` is shown as a dash.
-/

namespace BuildQuery.Calendar

/-- A year with 366 days. -/
def isLeap (year : Int) : Bool :=
  (year % 4 == 0 && year % 100 != 0) || year % 400 == 0

/-- The days from the beginning of 1970 to the beginning of a year. -/
def daysToYear (year : Int) : Int :=
  let before := year - 1
  365 * (year - 1970) + (before / 4 - before / 100 + before / 400) - 477

/-- The days of each month. -/
def monthLengths (leap : Bool) : List Nat :=
  [31, if leap then 29 else 28, 31, 30, 31, 30, 31, 31, 30, 31, 30, 31]

/-- A date: the month and the day are counted from 1. -/
structure Date where
  year : Int
  month : Nat
  day : Nat
deriving DecidableEq

/-- A date and a minute of the day. -/
structure Minute where
  date : Date
  hour : Nat
  minute : Nat
deriving DecidableEq

-- ---------------------------------------------------------------------------
-- From a date to a number of days
-- ---------------------------------------------------------------------------

/-- A date that is in the calendar. -/
def Date.Valid (d : Date) : Prop :=
  ∃ length, (monthLengths (isLeap d.year))[d.month - 1]? = some length ∧
    1 ≤ d.month ∧ 1 ≤ d.day ∧ d.day ≤ length

/-- The days from the beginning of 1970 to a date. -/
def Date.days (d : Date) : Int :=
  let before : Nat := ((monthLengths (isLeap d.year)).take (d.month - 1)).foldl (· + ·) 0
  daysToYear d.year + before + (d.day - 1)

/-- The milliseconds from the beginning of 1970 to a minute. -/
def Minute.millis (m : Minute) : Int :=
  ((m.date.days * 24 + m.hour) * 60 + m.minute) * 60000

-- ---------------------------------------------------------------------------
-- From a number of days to a date
-- ---------------------------------------------------------------------------

/-- The year in which a day lies: 400 years have 146097 days, which gives the year up to one. -/
def yearOf (days : Int) : Int :=
  let guess := 1970 + 400 * days / 146097
  if days < daysToYear guess then guess - 1
  else if daysToYear (guess + 1) ≤ days then guess + 1
  else guess

/-- The month, counted from `month`, and the day of the month of a day of the year. -/
def monthAndDay (month : Nat) : List Nat → Nat → Nat × Nat
  | [], rest => (month, rest + 1)
  | length :: lengths, rest =>
    if rest < length then (month, rest + 1) else monthAndDay (month + 1) lengths (rest - length)

/-- The date of a day. -/
def Date.ofDays (days : Int) : Date :=
  let year := yearOf days
  let (month, day) := monthAndDay 1 (monthLengths (isLeap year)) (days - daysToYear year).toNat
  ⟨year, month, day⟩

/-- The minute in which a time lies. -/
def Minute.ofMillis (millis : Int) : Minute :=
  let minutes := millis / 60000
  let inDay := (minutes % 1440).toNat
  ⟨.ofDays (minutes / 1440), inDay / 60, inDay % 60⟩

-- ---------------------------------------------------------------------------
-- The text
-- ---------------------------------------------------------------------------

/-- The first year that is shown. -/
def firstYear : Int := -262143

/-- The last year that is shown. -/
def lastYear : Int := 262142

/-- The text of a year: four digits, or a sign and at least four digits. -/
def yearText (year : Int) : String :=
  if 0 ≤ year ∧ year ≤ 9999 then Decimal.padded 4 year.toNat
  else (if year < 0 then "-" else "+") ++ Decimal.padded 4 year.natAbs

/-- The text of a minute. -/
def Minute.text (m : Minute) : String :=
  yearText m.date.year ++ "-" ++ Decimal.padded 2 m.date.month ++ "-" ++ Decimal.padded 2 m.date.day
    ++ " " ++ Decimal.padded 2 m.hour ++ ":" ++ Decimal.padded 2 m.minute

/-- A time that is shown as a minute. -/
def inRange (millis : Int) : Bool :=
  let year := (Minute.ofMillis millis).date.year
  firstYear ≤ year && year ≤ lastYear

/-- The text of a time. -/
def timeText (millis : Int) : String :=
  if inRange millis then (Minute.ofMillis millis).text else "-"

end BuildQuery.Calendar
