import Timetable.Calendar.Instant
import Timetable.Error
import Timetable.Schedule.Basic

/-!
# Timestamps

A timestamp has one of several forms, which are tried in a fixed order. The dates and
times themselves are read by parsers that are given: two for the forms with an offset
from universal time, and two that go by a format. The offset is dropped and the local
time kept.
-/

namespace Timetable

namespace Timestamp

/-- Parsers of dates and times. Those that go by a format want it to fit the whole text. -/
structure Parsers where
  internet? (t : Text) : Option ZonedInstant
  mail? (t : Text) : Option ZonedInstant
  instant? (format t : Text) : Option Instant
  date? (format t : Text) : Option Date

/-- The formats of a date and a time in the order in which they are tried. -/
def formats : List Text :=
  ["%Y-%m-%d %H:%M:%S".toList,
    "%Y-%m-%d %H:%M:%S UTC".toList,
    "%Y-%m-%d %I:%M:%S %p".toList,
    "%Y-%m-%d %I:%M:%S %p UTC".toList,
    "%Y-%m-%dT%H:%M:%S".toList,
    "%Y-%m-%d %H:%M".toList,
    "%a %b %e %H:%M:%S %Y".toList]

/-- The format of a date and a time as clocks print them behind the weekday. -/
def printedFormat : Text := "%b %e %H:%M:%S %Y".toList

/-- The format of a date alone. -/
def dateFormat : Text := "%Y-%m-%d".toList

variable (parsers : Parsers)

/-- A printed time with any ASCII word for its weekday. -/
def anyWeekDay? (t : Text) : Option Instant :=
  match t.dropWhile (· != ' ') with
  | _ :: rest =>
    if (t.takeWhile (· != ' ')).all Char.isAlpha then
      parsers.instant? printedFormat (Text.trimStart rest)
    else none
  | [] => none

/-- The forms in the order in which they are tried. -/
def forms : List (Text → Option Instant) :=
  [fun t => (parsers.internet? t).map ZonedInstant.wallClock,
    fun t => (parsers.mail? t).map ZonedInstant.wallClock] ++
  formats.map parsers.instant? ++
  [anyWeekDay? parsers, fun t => (parsers.date? dateFormat t).map Date.midnight]

/-- Reads a timestamp, blanks around it aside. -/
def read (t : Text) : Except Error Instant :=
  match (forms parsers).findSome? fun form => form (Text.trim t) with
  | some instant => .ok instant
  | none => .error (.invalidTimestamp (Text.trim t))

end Timestamp

/-- Whether the schedule includes the instant of a timestamp. -/
def Schedule.includesTimestamp (parsers : Timestamp.Parsers) (schedule : Schedule) (t : Text) :
    Except Error Bool :=
  (Timestamp.read parsers t).map fun instant => schedule.includes instant.fields

end Timetable
