/-!
# Dates

The proleptic Gregorian calendar, with a year 0 and negative years before it.
Weekdays follow from the number of days since the eve of the year 1, whose first
day is a Monday.
-/

namespace Timetable

/-- Every fourth year is a leap year, but of the centuries only every fourth. -/
def isLeapYear (year : Int) : Bool :=
  year % 4 == 0 && (year % 100 != 0 || year % 400 == 0)

def daysInMonth (year : Int) (month : Nat) : Nat :=
  match month with
  | 2 => if isLeapYear year then 29 else 28
  | 4 | 6 | 9 | 11 => 30
  | _ => 31

theorem daysInMonth_le (year : Int) (month : Nat) : daysInMonth year month ≤ 31 := by
  unfold daysInMonth
  repeat' split
  all_goals omega

/-- Month and day exist in the year. -/
def IsDate (year : Int) (month day : Nat) : Prop :=
  1 ≤ month ∧ month ≤ 12 ∧ 1 ≤ day ∧ day ≤ daysInMonth year month

instance (year : Int) (month day : Nat) : Decidable (IsDate year month day) := by
  unfold IsDate
  infer_instance

/-- A day of the calendar. -/
@[ext] structure Date where
  year : Int
  month : Nat
  day : Nat
  isDate : IsDate year month day
deriving DecidableEq

/-- The difference of two numbers, unless it is negative. -/
def minus? (a b : Nat) : Option Nat := if b ≤ a then some (a - b) else none

/-- The week of the month, from the number of the day and its day of the week; there is none
for a day of no month or of no week. The first week lasts until the first Sunday after the
first day, and every Sunday from then on starts another. The day of the week of the second
day tells how far off the first of these Sundays is. -/
def weekOfMonth? (day weekDay : Nat) : Option Nat :=
  if day = 0 ∨ 6 < weekDay then none
  else if day < 2 then some 1
  else do
    let days ← minus? day 1
    let sinceSecond ← minus? day 2
    let secondWeekDay ← minus? (weekDay + 7) (sinceSecond % 7)
    let untilSunday ← minus? 7 (secondWeekDay % 7)
    let firstSunday := untilSunday % 7
    if days ≤ firstSunday then pure 1
    else
      let daysAfter ← minus? days 1
      let sinceSunday ← minus? daysAfter firstSunday
      pure (2 + sinceSunday / 7)

theorem minus?_of_le {a b : Nat} (h : b ≤ a) : minus? a b = some (a - b) := if_pos h

/-- Every day of a month that falls on some day of the week has its week. -/
theorem weekOfMonth?_eq {day weekDay : Nat} (hday : 1 ≤ day) (hweekDay : weekDay ≤ 6) :
    weekOfMonth? day weekDay = some (1 + (day + 5 - weekDay) / 7) := by
  have hvalid : ¬(day = 0 ∨ 6 < weekDay) := by omega
  rw [weekOfMonth?, if_neg hvalid]
  split
  · next hfirst => rw [Nat.div_eq_of_lt (by omega)]
  · next hlater =>
    have hdays : minus? day 1 = some (day - 1) := minus?_of_le hday
    have hsince : minus? day 2 = some (day - 2) := minus?_of_le (by omega)
    have hsecond : minus? (weekDay + 7) ((day - 2) % 7) = some (weekDay + 7 - (day - 2) % 7) :=
      minus?_of_le (by omega)
    have huntil : minus? 7 ((weekDay + 7 - (day - 2) % 7) % 7) =
        some (7 - (weekDay + 7 - (day - 2) % 7) % 7) := minus?_of_le (by omega)
    simp only [hdays, hsince, hsecond, huntil, Option.bind_eq_bind, Option.bind_some]
    split
    · next hbefore =>
      have hzero : (day + 5 - weekDay) / 7 = 0 := by omega
      rw [hzero]
      rfl
    · next hbehind =>
      rw [minus?_of_le (show 1 ≤ day - 1 by omega), Option.bind_some, minus?_of_le (by omega),
        Option.bind_some]
      exact congrArg some (by omega)

namespace Date

theorem day_le (date : Date) : date.day ≤ 31 :=
  Nat.le_trans date.isDate.2.2.2 (daysInMonth_le date.year date.month)

/-- The date with the given year, month and day, if there is one. -/
def of? (year : Int) (month day : Nat) : Option Date :=
  if h : IsDate year month day then some ⟨year, month, day, h⟩ else none

/-- The number of the day within its year, from 1. -/
def dayOfYear (date : Date) : Nat :=
  (List.range' 1 (date.month - 1)).foldr (fun month days => daysInMonth date.year month + days)
    date.day

/-- The number of days before the first of January, counted from the year 1. -/
def daysBeforeYear (year : Int) : Int :=
  365 * (year - 1) + (year - 1) / 4 - (year - 1) / 100 + (year - 1) / 400

/-- The number of the day, from 1 for the first day of the year 1. -/
def dayNumber (date : Date) : Int := daysBeforeYear date.year + date.dayOfYear

/-- The day of the week, 0 for Sunday. -/
def weekDay (date : Date) : Nat := (date.dayNumber % 7).toNat

theorem weekDay_lt (date : Date) : date.weekDay < 7 := by
  have := Int.emod_nonneg date.dayNumber (show (7 : Int) ≠ 0 by decide)
  have := Int.emod_lt_of_pos date.dayNumber (show (0 : Int) < 7 by decide)
  unfold weekDay
  omega

theorem isSome_weekOfMonth? (date : Date) :
    (weekOfMonth? date.day date.weekDay).isSome = true := by
  rw [weekOfMonth?_eq date.isDate.2.2.1 (Nat.le_of_lt_succ date.weekDay_lt)]
  rfl

/-- The week of the month. -/
def weekOfMonth (date : Date) : Nat :=
  (weekOfMonth? date.day date.weekDay).get date.isSome_weekOfMonth?

end Date

end Timetable
