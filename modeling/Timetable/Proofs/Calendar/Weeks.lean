import Mathlib.Data.Finset.Card
import Mathlib.Algebra.Order.Interval.Finset.SuccPred
import Mathlib.Data.Nat.SuccPred
import Mathlib.Order.Interval.Finset.Nat
import Timetable.Calendar.Instant

/-!
# Sundays and the weeks of a month

Within a month the days of the week follow one another. So the week of the month
moves on just where the count of its Sundays does, the first day left aside, and
with at most 31 days there are no more than six weeks.
-/

namespace Timetable

/-- The day exists and is a Sunday. -/
def IsSunday (year : Int) (month day : Nat) : Prop :=
  ∃ h : IsDate year month day, (Date.mk year month day h).weekDay = 0

instance (year : Int) (month day : Nat) : Decidable (IsSunday year month day) :=
  inferInstanceAs (Decidable (∃ _ : IsDate year month day, _))

namespace Date

variable {date next : Date}

/-- The two dates are consecutive days of one month. -/
structure Precedes (date next : Date) : Prop where
  year_eq : next.year = date.year
  month_eq : next.month = date.month
  day_eq : next.day = date.day + 1

theorem isSunday_iff (date : Date) :
    IsSunday date.year date.month date.day ↔ date.weekDay = 0 := by
  constructor
  · rintro ⟨_, hsunday⟩
    exact hsunday
  · intro hsunday
    exact ⟨date.isDate, hsunday⟩

theorem weekOfMonth_eq (date : Date) :
    date.weekOfMonth = 1 + (date.day + 5 - date.weekDay) / 7 := by
  have hweek := weekOfMonth?_eq date.isDate.2.2.1 (Nat.le_of_lt_succ date.weekDay_lt)
  simp only [weekOfMonth, hweek, Option.get_some]

theorem foldr_add_succ (months : List Nat) (f : Nat → Nat) (day : Nat) :
    months.foldr (fun month days => f month + days) (day + 1) =
      months.foldr (fun month days => f month + days) day + 1 := by
  induction months with
  | nil => rfl
  | cons month rest ih =>
      rw [List.foldr_cons, List.foldr_cons, ih]
      rfl

namespace Precedes

theorem dayOfYear_eq (h : date.Precedes next) : next.dayOfYear = date.dayOfYear + 1 := by
  rw [dayOfYear, dayOfYear, h.year_eq, h.month_eq, h.day_eq]
  exact foldr_add_succ _ _ _

/-- The next day falls on the next day of the week. -/
theorem weekDay_eq (h : date.Precedes next) : next.weekDay = (date.weekDay + 1) % 7 := by
  have hnumber : next.dayNumber = date.dayNumber + 1 := by
    rw [dayNumber, dayNumber, h.year_eq, h.dayOfYear_eq]
    omega
  rw [weekDay, weekDay, hnumber]
  omega

/-- The week of the month moves on with a Sunday and with no other day. -/
theorem weekOfMonth_eq (h : date.Precedes next) :
    next.weekOfMonth = date.weekOfMonth + if next.weekDay = 0 then 1 else 0 := by
  have hday := date.isDate.2.2.1
  have hlt := date.weekDay_lt
  rw [next.weekOfMonth_eq, date.weekOfMonth_eq, h.weekDay_eq, h.day_eq]
  split <;> omega

end Precedes

/-- Every day of a month but the first one has a day before it. -/
theorem exists_precedes (h : next.day ≠ 1) : ∃ date : Date, date.Precedes next := by
  obtain ⟨hlow, hhigh, hday, hlast⟩ := next.isDate
  exact ⟨⟨next.year, next.month, next.day - 1, hlow, hhigh, by omega, by omega⟩, rfl, rfl,
    (Nat.sub_add_cancel hday).symm⟩

/-- The Sundays of the month from its second day up to the date. -/
def sundays (date : Date) : Finset Nat :=
  (Finset.Icc 2 date.day).filter (IsSunday date.year date.month)

theorem Precedes.card_sundays_eq (h : date.Precedes next) :
    next.sundays.card = date.sundays.card + if next.weekDay = 0 then 1 else 0 := by
  have hday := date.isDate.2.2.1
  have hsunday : IsSunday date.year date.month (date.day + 1) ↔ next.weekDay = 0 := by
    rw [← h.year_eq, ← h.month_eq, ← h.day_eq]
    exact next.isSunday_iff
  have hnew : date.day + 1 ∉ date.sundays := by
    simp [sundays]
  rw [sundays, h.year_eq, h.month_eq, h.day_eq,
    ← Finset.insert_Icc_right_eq_Icc_add_one (show 2 ≤ date.day + 1 by omega),
    Finset.filter_insert]
  by_cases hnext : next.weekDay = 0
  · rw [if_pos (hsunday.mpr hnext), if_pos hnext]
    exact Finset.card_insert_of_notMem hnew
  · rw [if_neg fun h => hnext (hsunday.mp h), if_neg hnext]
    rfl

theorem weekOfMonth_of_day_eq_one (h : date.day = 1) : date.weekOfMonth = 1 := by
  rw [date.weekOfMonth_eq, h, Nat.div_eq_of_lt (by omega)]

/-- The week of the month counts the Sundays, by induction on the days of the month. -/
theorem weekOfMonth_eq_card_sundays (date : Date) :
    date.weekOfMonth = 1 + date.sundays.card := by
  by_cases hfirst : date.day = 1
  · have hnone : date.sundays = ∅ := by
      simp [sundays, hfirst]
    rw [weekOfMonth_of_day_eq_one hfirst, hnone, Finset.card_empty]
  · obtain ⟨before, hbefore⟩ := exists_precedes hfirst
    have hlt : before.day < date.day := by
      have := hbefore.day_eq
      omega
    rw [hbefore.weekOfMonth_eq, hbefore.card_sundays_eq, weekOfMonth_eq_card_sundays before,
      Nat.add_assoc]
termination_by date.day

theorem weekOfMonth_le (date : Date) : date.weekOfMonth ≤ 6 := by
  have hday := date.day_le
  rw [date.weekOfMonth_eq]
  omega

end Date

/-- The week of an instant is one more than the number of Sundays in its month from the second
day up to its own, and it is found without a negative difference on the way. So it is 1 on the
first day, it moves on by one with a Sunday and stays on any other day, and it is never more
than 6. -/
theorem week_counts_sundays (t : Instant) :
    t.fields .week = 1 + ((Finset.Icc 2 t.date.day).filter
      (IsSunday t.date.year t.date.month)).card ∧
    weekOfMonth? t.date.day t.date.weekDay = some (t.fields .week) ∧
    (t.date.day = 1 → t.fields .week = 1) ∧
    (∀ u : Instant, t.date.Precedes u.date →
      u.fields .week = t.fields .week + if u.date.weekDay = 0 then 1 else 0) ∧
    t.fields .week ≤ 6 := by
  refine ⟨t.date.weekOfMonth_eq_card_sundays, ?_, Date.weekOfMonth_of_day_eq_one, ?_,
    t.date.weekOfMonth_le⟩
  · exact (Option.some_get t.date.isSome_weekOfMonth?).symm
  · intro u hu
    exact hu.weekOfMonth_eq

/-- A month that starts on a Saturday, so that its 30th day is a Sunday in the sixth week. -/
theorem week_counts_sundays_saturday_month :
    let midnight : TimeOfDay := ⟨0, 0, 0, by decide⟩
    let first : Instant := ⟨⟨2015, 8, 1, by decide⟩, midnight⟩
    let saturday : Instant := ⟨⟨2015, 8, 29, by decide⟩, midnight⟩
    let sunday : Instant := ⟨⟨2015, 8, 30, by decide⟩, midnight⟩
    first.date.weekDay = 6 ∧ first.date.day = 1 ∧ first.fields .week = 1 ∧
    saturday.fields .week = 1 + ((Finset.Icc 2 29).filter (IsSunday 2015 8)).card ∧
    saturday.date.Precedes sunday.date ∧ sunday.date.weekDay = 0 ∧
    sunday.fields .week = saturday.fields .week + (if sunday.date.weekDay = 0 then 1 else 0) ∧
    sunday.fields .week = 6 := by
  intro midnight first saturday sunday
  have hfirst := week_counts_sundays first
  have hsaturday := week_counts_sundays saturday
  have hnext : saturday.date.Precedes sunday.date := ⟨rfl, rfl, rfl⟩
  exact ⟨by decide, rfl, hfirst.2.2.1 rfl, hsaturday.1, hnext, by decide,
    hsaturday.2.2.2.1 sunday hnext, by decide⟩

end Timetable
