import Timetable.Expression
import Timetable.Schedule.Basic

/-!
# Schedules as texts

A schedule is printed as the expression of its periods, the positive ones first,
and read from any expression.
-/

namespace Timetable

namespace Schedule

/-- The text of a negated period. -/
def negatedText (period : Period) : Text := "not ".toList ++ period.text

/-- The text of a schedule. A list of periods without text leaves no comma. -/
def text (schedule : Schedule) : Text :=
  let parts :=
    [Period.listText schedule.positive,
      ", ".toList.intercalate (schedule.negative.map negatedText)]
  ", ".toList.intercalate (parts.filter fun part => !part.isEmpty)

/-- Reads the schedule that an expression describes. -/
def parse (t : Text) : Except Error Schedule :=
  (Expression.read t).outcome.map fun periods => ofPeriods periods.1 periods.2

instance : ToString Schedule := ⟨fun schedule => String.ofList schedule.text⟩

end Schedule

end Timetable
