import Timetable.Period.Meeting
import Timetable.Schedule.Basic

/-!
# The algebra of schedules

Union, intersection and complement of schedules are built from meetings of their
periods and from the lists themselves. They never fail, and complement undoes
itself.
-/

namespace Timetable

namespace Schedule

/-- Includes whatever either schedule includes. An instant stays excluded only if both
schedules exclude it, so more may be included where there are negative periods. -/
def union (a b : Schedule) : Schedule where
  positive :=
    if a.positive.isEmpty || b.positive.isEmpty then [] else a.positive ++ b.positive
  negative := Period.intersect a.negative b.negative

/-- The positive periods of an intersection. No positive periods stand for everything,
so a period that matches nothing takes the place of an empty product. -/
def intersectPositive (left right : List Period) : List Period :=
  if left.isEmpty then right
  else if right.isEmpty then left
  else
    let periods := Period.intersect left right
    if periods.isEmpty then [Period.never] else periods

/-- Includes what both schedules include. -/
def intersection (a b : Schedule) : Schedule where
  positive := intersectPositive a.positive b.positive
  negative := a.negative ++ b.negative

/-- Positive and negative periods change places. -/
def complement (schedule : Schedule) : Schedule := ⟨schedule.negative, schedule.positive⟩

/-- Whether both schedules have positive periods and no two of them meet. -/
def isExclusive (a b : Schedule) : Bool :=
  !a.positive.isEmpty && !b.positive.isEmpty &&
    (Period.intersect a.positive b.positive).isEmpty

def overlaps (a b : Schedule) : Bool := !isExclusive a b

end Schedule

end Timetable
