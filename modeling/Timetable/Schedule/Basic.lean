import Timetable.Period.Basic

/-!
# Schedules

A schedule is given by positive and negative periods. It includes whatever no
negative period accepts and some positive period does; without positive periods
everything counts as accepted. Two schedules are equivalent when their lists hold
the same periods, whatever the order and the repeats.
-/

namespace Timetable

/-- The periods that include and those that exclude. -/
structure Schedule where
  positive : List Period
  negative : List Period
deriving DecidableEq

namespace Schedule

/-- The schedule without periods, which includes everything. -/
def always : Schedule := ⟨[], []⟩

/-- An unconstrained period has no text, so none is stored: a negative one makes the
schedule include nothing, a positive one takes all positive constraints away. -/
def ofPeriods (positive negative : List Period) : Schedule :=
  if negative.any Period.isUnconstrained then ⟨[Period.never], []⟩
  else if positive.any Period.isUnconstrained then ⟨[], negative⟩
  else ⟨positive, negative⟩

/-- Whether there are no periods at all. -/
def isEmpty (schedule : Schedule) : Bool :=
  schedule.positive.isEmpty && schedule.negative.isEmpty

/-- Whether one of the periods accepts the assignment. -/
def anyAccepts (periods : List Period) (assignment : Assignment) : Bool :=
  periods.any fun period => period.accepts assignment

/-- Whether the schedule includes the assignment. -/
def includes (schedule : Schedule) (assignment : Assignment) : Bool :=
  !anyAccepts schedule.negative assignment &&
    (schedule.positive.isEmpty || anyAccepts schedule.positive assignment)

/-- Both lists hold the same periods. -/
def Equivalent (a b : Schedule) : Prop :=
  (∀ p, p ∈ a.positive ↔ p ∈ b.positive) ∧ ∀ p, p ∈ a.negative ↔ p ∈ b.negative

/-- The distinct periods of each list in order, the same for equivalent schedules. -/
def key (schedule : Schedule) : List Period × List Period :=
  (ascending compare schedule.positive, ascending compare schedule.negative)

/-- The same periods, from whichever side one looks. -/
theorem same_iff (p q : List Period) :
    (∀ x, x ∈ p ↔ x ∈ q) ↔ (∀ x ∈ p, x ∈ q) ∧ ∀ x ∈ q, x ∈ p :=
  ⟨fun h => ⟨fun x => (h x).1, fun x => (h x).2⟩, fun h x => ⟨h.1 x, h.2 x⟩⟩

instance (a b : Schedule) : Decidable (Equivalent a b) :=
  decidable_of_iff
    (((∀ x ∈ a.positive, x ∈ b.positive) ∧ ∀ x ∈ b.positive, x ∈ a.positive) ∧
      (∀ x ∈ a.negative, x ∈ b.negative) ∧ ∀ x ∈ b.negative, x ∈ a.negative)
    (by rw [Equivalent, same_iff, same_iff])

end Schedule

end Timetable
