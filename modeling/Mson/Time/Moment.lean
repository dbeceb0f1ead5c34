import Mson.Time.Calendar
import Mson.Time.Digits

/-!
# Moments

A date with a time of day and, where it is known, the offset from universal time. Moments are
written in the extended format of ISO 8601, the fraction of a second with six digits or not at all.
-/
namespace Mson.Time

structure Moment where
  date : Date
  clock : Clock
  offset : Option Offset
  deriving DecidableEq, Repr

/-- The first part of a moment that does not exist. The offset is looked at first. -/
def Moment.fault? (moment : Moment) : Option CalendarFault :=
  (moment.offset.bind Offset.fault?).or (moment.date.fault?.or moment.clock.fault?)

/-! ## Written moments -/

def Date.toIso (date : Date) : String :=
  padded 4 date.year ++ "-" ++ padded 2 date.month ++ "-" ++ padded 2 date.day

def Clock.toIso (clock : Clock) : String :=
  padded 2 clock.hour ++ ":" ++ padded 2 clock.minute ++ ":" ++ padded 2 clock.second ++
    (if clock.microsecond = 0 then "" else "." ++ padded 6 clock.microsecond)

/-- Hours and minutes behind a sign, and seconds where there are any. -/
def Offset.toIso (offset : Offset) : String :=
  let size := offset.microseconds.natAbs
  let fraction := size % microsecondsPerSecond
  let seconds := size / microsecondsPerSecond
  let minutes := seconds / 60
  (if offset.microseconds < 0 then "-" else "+") ++
    padded 2 (minutes / 60) ++ ":" ++ padded 2 (minutes % 60) ++
    (if seconds % 60 = 0 ∧ fraction = 0 then "" else ":" ++ padded 2 (seconds % 60)) ++
    (if fraction = 0 then "" else "." ++ padded 6 fraction)

/-- A date and a time with a separator between them. -/
def Moment.written (separator : String) (moment : Moment) : String :=
  moment.date.toIso ++ separator ++ moment.clock.toIso ++
    (match moment.offset with
      | some offset => offset.toIso
      | none => "")

def Moment.toIso (moment : Moment) : String := moment.written "T"

/-! ## Instants -/

/-- The microseconds in universal time since the beginning of year one. -/
def Moment.instant (moment : Moment) (offset : Offset) : Int :=
  let clock := moment.clock
  let seconds : Int :=
    moment.date.dayNumber * secondsPerDay + clock.hour * 3600 + clock.minute * 60 + clock.second
  seconds * microsecondsPerSecond + clock.microsecond - offset.microseconds

/-- The moment in universal time that many microseconds after the beginning of 1970. -/
def Moment.ofUnix (microseconds : Nat) : Moment :=
  let seconds := microseconds / microsecondsPerSecond
  let time := seconds % secondsPerDay
  ⟨.ofDayNumber (daysBeforeYear 1970 + seconds / secondsPerDay),
    ⟨time / 3600, time / 60 % 60, time % 60, microseconds % microsecondsPerSecond⟩, some ⟨0⟩⟩

/-- Moments with offsets are the same if they are the same instant; a moment without an offset is
the same as none that has one. -/
def Moment.same (left right : Moment) : Bool :=
  match left.offset, right.offset with
  | some leftOffset, some rightOffset => left.instant leftOffset == right.instant rightOffset
  | none, none => left == right
  | _, _ => false

end Mson.Time
