import Timetable.Calendar.Date
import Timetable.Period.Basic

/-!
# Instants

An instant is a local date and time of day, to the second. Its calendar fields
assign a value to every scale.
-/

namespace Timetable

/-- A time of day. -/
@[ext] structure TimeOfDay where
  hour : Nat
  minute : Nat
  second : Nat
  isTime : hour < 24 ∧ minute < 60 ∧ second < 60
deriving DecidableEq

namespace TimeOfDay

def of? (hour minute second : Nat) : Option TimeOfDay :=
  if h : hour < 24 ∧ minute < 60 ∧ second < 60 then some ⟨hour, minute, second, h⟩ else none

/-- The seconds since midnight. -/
def seconds (time : TimeOfDay) : Nat := (time.hour * 60 + time.minute) * 60 + time.second

end TimeOfDay

/-- A date and a time of day. -/
@[ext] structure Instant where
  date : Date
  time : TimeOfDay
deriving DecidableEq

namespace Instant

/-- The largest year that the calendar fields tell apart from greater ones. -/
def lastYear : Nat := 65535

/-- The calendar fields. Years outside of 0 to 65535 count as the nearest of these;
the weeks of a month may run to 6, beyond the domain of their scale. -/
def fields (instant : Instant) : Assignment
  | .year => min instant.date.year.toNat lastYear
  | .month => instant.date.month
  | .week => instant.date.weekOfMonth
  | .yearDay => instant.date.dayOfYear
  | .monthDay => instant.date.day
  | .weekDay => instant.date.weekDay
  | .hour => instant.time.hour
  | .minute => instant.time.minute
  | .second => instant.time.second

/-- The seconds since the eve of the year 1. -/
def seconds (instant : Instant) : Int := instant.date.dayNumber * 86400 + instant.time.seconds

end Instant

/-- The first instant of a date. -/
def Date.midnight (date : Date) : Instant := ⟨date, ⟨0, 0, 0, by decide⟩⟩

/-- A local date and time with its offset from universal time, in seconds to the east. -/
structure ZonedInstant where
  wallClock : Instant
  offset : Int
deriving DecidableEq

end Timetable
