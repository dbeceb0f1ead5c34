/-!
# Calendar dates and times

Dates of the Gregorian calendar, carried back to year one, times of day with microseconds, and
offsets from universal time of less than a day.
-/
namespace Mson.Time

/-- An offset from universal time, in microseconds; it is positive east of the prime meridian. -/
structure Offset where
  microseconds : Int
  deriving DecidableEq, Repr

def microsecondsPerSecond : Nat := 1000000

def secondsPerDay : Nat := 86400

/-- The offset of so many hours, minutes and seconds, and a fraction of a second. -/
def Offset.ofParts (negative : Bool) (hours minutes seconds microseconds : Nat) : Offset :=
  let total := ((hours * 60 + minutes) * 60 + seconds) * microsecondsPerSecond + microseconds
  ⟨if negative then -(total : Int) else total⟩

def isLeapYear (year : Nat) : Bool := year % 4 == 0 && (year % 100 != 0 || year % 400 == 0)

def daysInMonth (year month : Nat) : Nat :=
  if month = 2 then (if isLeapYear year then 29 else 28)
  else if month = 4 ∨ month = 6 ∨ month = 9 ∨ month = 11 then 30
  else 31

/-- Which part of a date, a time or an offset does not exist. -/
inductive CalendarFault where
  | year (value : Nat)
  | month
  | day
  | hour
  | minute
  | second
  /-- An offset of a day or more. -/
  | offset (value : Offset)
  deriving DecidableEq, Repr

/-- A span of time as days, seconds of a day and microseconds of a second, of which only the days
may be negative. -/
def spanText (microseconds : Int) : String :=
  let seconds := microseconds.fdiv microsecondsPerSecond
  let parts := [("days", seconds.fdiv secondsPerDay), ("seconds", seconds.fmod secondsPerDay),
    ("microseconds", microseconds.fmod microsecondsPerSecond)]
  let shown := parts.filter fun (_, count) => count != 0
  "datetime.timedelta(" ++ ", ".intercalate (shown.map fun (unit, count) => s!"{unit}={count}") ++
    ")"

def CalendarFault.message : CalendarFault → String
  | .year value => s!"year {value} is out of range"
  | .month => "month must be in 1..12"
  | .day => "day is out of range for month"
  | .hour => "hour must be in 0..23"
  | .minute => "minute must be in 0..59"
  | .second => "second must be in 0..59"
  | .offset value =>
      "offset must be a timedelta strictly between -timedelta(hours=24) and " ++
        "timedelta(hours=24), not " ++ spanText value.microseconds ++ "."

structure Date where
  year : Nat
  month : Nat
  day : Nat
  deriving DecidableEq, Repr

structure Clock where
  hour : Nat
  minute : Nat
  second : Nat
  microsecond : Nat
  deriving DecidableEq, Repr

/-- The first part of a date that does not exist. -/
def Date.fault? (date : Date) : Option CalendarFault :=
  if date.year < 1 ∨ 9999 < date.year then some (.year date.year)
  else if date.month < 1 ∨ 12 < date.month then some .month
  else if date.day < 1 ∨ daysInMonth date.year date.month < date.day then some .day
  else none

/-- The days before a year, counted from the first day of year one. -/
def daysBeforeYear (year : Nat) : Nat :=
  let past := year - 1
  past * 365 + past / 4 - past / 100 + past / 400

/-- The days of a year before a month. -/
def daysBeforeMonth (year month : Nat) : Nat :=
  (List.range (month - 1)).foldl (fun days past => days + daysInMonth year (past + 1)) 0

/-- The days from the first day of year one to a date. -/
def Date.dayNumber (date : Date) : Nat :=
  daysBeforeYear date.year + daysBeforeMonth date.year date.month + (date.day - 1)

/-- The date that many days after the first day of year one. -/
def Date.ofDayNumber (days : Nat) : Date :=
  let estimate := days / 366 + 1
  let later := (List.range (days / 100000 + 2)).filter fun step =>
    daysBeforeYear (estimate + step + 1) ≤ days
  let year := estimate + later.length
  let rest := days - daysBeforeYear year
  let month := ((List.range 12).filter fun past => daysBeforeMonth year (past + 1) ≤ rest).length
  ⟨year, month, rest - daysBeforeMonth year month + 1⟩

def Clock.fault? (clock : Clock) : Option CalendarFault :=
  if 23 < clock.hour then some .hour
  else if 59 < clock.minute then some .minute
  else if 59 < clock.second then some .second
  else none

def Offset.fault? (offset : Offset) : Option CalendarFault :=
  if secondsPerDay * microsecondsPerSecond ≤ offset.microseconds.natAbs then some (.offset offset)
  else none

end Mson.Time
