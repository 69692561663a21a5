import Timetable.Schedule.Text

/-!
# Encoded schedules

In data a schedule is a string that holds its expression.
-/

namespace Timetable

/-- The string that stands for a schedule. -/
structure Encoded where
  string : Text
deriving DecidableEq

namespace Encoded

/-- Reads the schedule that a string encodes; what goes wrong is told in words. -/
def schedule (encoded : Encoded) : Except Text Schedule :=
  (Schedule.parse encoded.string).mapError Error.message

/-- The string that encodes a schedule. -/
def ofSchedule (schedule : Schedule) : Encoded := ⟨schedule.text⟩

end Encoded

end Timetable
