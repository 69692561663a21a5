import Mathlib.Order.BooleanAlgebra.Defs
import Timetable.Proofs.Schedule.Algebra

/-!
# Laws of what schedules include

The negative and the positive periods of a schedule each give a verdict on an
assignment. Verdicts form a distributive lattice in which unions are suprema and
intersections infima, so nested unions and intersections obey its laws although a
union may include more than either schedule. Complements follow no such rule: a
schedule and its complement share nothing unless there are no periods, and both
leave out what the two lists judge alike.
-/

namespace Timetable.Schedule

variable {a b : Schedule} {x : Assignment}

/-- Whether no negative period accepts the assignment, and whether the positive periods
leave room for it. -/
def verdict (schedule : Schedule) (x : Assignment) : Bool × Bool :=
  (!anyAccepts schedule.negative x, allows schedule.positive x)

theorem includes_eq_verdict (schedule : Schedule) (x : Assignment) :
    schedule.includes x = ((schedule.verdict x).1 && (schedule.verdict x).2) := rfl

theorem includes_eq_of_verdict_eq (h : a.verdict x = b.verdict x) :
    a.includes x = b.includes x := by
  rw [includes_eq_verdict, includes_eq_verdict, h]

theorem verdict_union (a b : Schedule) (x : Assignment) :
    (a.union b).verdict x = a.verdict x ⊔ b.verdict x := by
  apply Prod.ext
  · change (!anyAccepts (Period.intersect a.negative b.negative) x) = _
    rw [anyAccepts_intersect, Bool.not_and]
    rfl
  · exact allows_union a b x

theorem verdict_intersection (a b : Schedule) (x : Assignment) :
    (a.intersection b).verdict x = a.verdict x ⊓ b.verdict x := by
  apply Prod.ext
  · change (!anyAccepts (a.negative ++ b.negative) x) = _
    rw [anyAccepts_append, Bool.not_or]
    rfl
  · exact allows_intersectPositive a.positive b.positive x

/-- Unions and intersections distribute over each other, absorb each other and are
idempotent, as far as the instants are concerned that they include. -/
theorem includes_lattice_laws (a b c : Schedule) (t : Instant) :
    (a.intersection (b.union c)).includes t.fields =
      ((a.intersection b).union (a.intersection c)).includes t.fields ∧
    (a.union (b.intersection c)).includes t.fields =
      ((a.union b).intersection (a.union c)).includes t.fields ∧
    (a.union (a.intersection b)).includes t.fields = a.includes t.fields ∧
    (a.intersection (a.union b)).includes t.fields = a.includes t.fields ∧
    (a.union a).includes t.fields = a.includes t.fields ∧
    (a.intersection a).includes t.fields = a.includes t.fields := by
  refine ⟨?_, ?_, ?_, ?_, ?_, ?_⟩ <;> apply includes_eq_of_verdict_eq
  · simp only [verdict_union, verdict_intersection, inf_sup_left]
  · simp only [verdict_union, verdict_intersection, sup_inf_left]
  · rw [verdict_union, verdict_intersection, sup_inf_self]
  · rw [verdict_intersection, verdict_union, inf_sup_self]
  · rw [verdict_union, sup_idem]
  · rw [verdict_intersection, inf_idem]

theorem includes_complement_eq (schedule : Schedule) (x : Assignment) :
    schedule.complement.includes x =
      (!anyAccepts schedule.positive x && allows schedule.negative x) := rfl

/-- A schedule and its complement include something in common only without periods. -/
theorem includes_and_includes_complement_iff (schedule : Schedule) (x : Assignment) :
    (schedule.includes x = true ∧ schedule.complement.includes x = true) ↔
      schedule.positive = [] ∧ schedule.negative = [] := by
  rw [includes_eq, includes_complement_eq]
  constructor
  · intro h
    simp only [Bool.and_eq_true, Bool.not_eq_true'] at h
    obtain ⟨⟨hneg, hpos⟩, hpos', hneg'⟩ := h
    constructor
    · by_contra hne
      rw [allows_of_ne_nil hne, hpos'] at hpos
      cases hpos
    · by_contra hne
      rw [allows_of_ne_nil hne, hneg] at hneg'
      cases hneg'
  · rintro ⟨hpos, hneg⟩
    simp [hpos, hneg, allows]

/-- A schedule and its complement both leave out what both lists accept or neither does. -/
theorem not_includes_and_not_includes_complement_iff (schedule : Schedule) (x : Assignment) :
    (schedule.includes x = false ∧ schedule.complement.includes x = false) ↔
      schedule.positive ≠ [] ∧ schedule.negative ≠ [] ∧
        anyAccepts schedule.positive x = anyAccepts schedule.negative x := by
  rw [includes_eq, includes_complement_eq]
  by_cases hpos : schedule.positive = []
  · cases hneg : anyAccepts schedule.negative x <;> simp [hpos, hneg, allows]
  by_cases hneg : schedule.negative = []
  · cases hpos' : anyAccepts schedule.positive x <;> simp [hneg, hpos', allows]
  rw [allows_of_ne_nil hpos, allows_of_ne_nil hneg]
  cases anyAccepts schedule.positive x <;> cases anyAccepts schedule.negative x <;>
    simp [hpos, hneg]

/-- If all periods are of one sign, the complement includes just what the schedule leaves
out. -/
theorem includes_complement_of_one_sided {schedule : Schedule}
    (h : (schedule.positive ≠ [] ∧ schedule.negative = []) ∨
      (schedule.positive = [] ∧ schedule.negative ≠ [])) (x : Assignment) :
    schedule.complement.includes x = !schedule.includes x := by
  rw [includes_complement_eq, includes_eq]
  rcases h with ⟨hpos, hneg⟩ | ⟨hpos, hneg⟩
  · rw [allows_of_ne_nil hpos, hneg]
    simp [allows]
  · rw [allows_of_ne_nil hneg, hpos]
    simp [allows]

/-- Complementing twice restores both lists. With some period a schedule and its complement
never include the same instant, and they both leave one out just when there are periods of
both signs and it suits some of each or none at all. So they split the instants between them
if one list is empty, and both include everything if both are. -/
theorem includes_complement_iff (schedule : Schedule) (t : Instant) :
    (schedule.complement.complement.positive = schedule.positive ∧
      schedule.complement.complement.negative = schedule.negative) ∧
    (schedule.positive ≠ [] ∨ schedule.negative ≠ [] →
      ¬(schedule.includes t.fields = true ∧ schedule.complement.includes t.fields = true)) ∧
    (schedule.includes t.fields = false ∧ schedule.complement.includes t.fields = false ↔
      schedule.positive ≠ [] ∧ schedule.negative ≠ [] ∧
        (((∃ p ∈ schedule.positive, p.accepts t.fields = true) ∧
            ∃ p ∈ schedule.negative, p.accepts t.fields = true) ∨
          (¬∃ p ∈ schedule.positive, p.accepts t.fields = true) ∧
            ¬∃ p ∈ schedule.negative, p.accepts t.fields = true)) ∧
    ((schedule.positive ≠ [] ∧ schedule.negative = []) ∨
        (schedule.positive = [] ∧ schedule.negative ≠ []) →
      schedule.complement.includes t.fields = !schedule.includes t.fields) ∧
    (schedule.isEmpty = true →
      schedule.includes t.fields = true ∧ schedule.complement.includes t.fields = true) := by
  have hboth := includes_and_includes_complement_iff schedule t.fields
  have hneither := not_includes_and_not_includes_complement_iff schedule t.fields
  have halike : anyAccepts schedule.positive t.fields = anyAccepts schedule.negative t.fields ↔
      ((∃ p ∈ schedule.positive, p.accepts t.fields = true) ∧
        ∃ p ∈ schedule.negative, p.accepts t.fields = true) ∨
      (¬∃ p ∈ schedule.positive, p.accepts t.fields = true) ∧
        ¬∃ p ∈ schedule.negative, p.accepts t.fields = true := by
    rw [← anyAccepts_iff, ← anyAccepts_iff, Bool.eq_iff_iff]
    exact iff_iff_and_or_not_and_not
  refine ⟨⟨rfl, rfl⟩, ?_, ?_, ?_, ?_⟩
  · intro hsome h
    obtain ⟨hpos, hneg⟩ := hboth.mp h
    exact hsome.elim (fun hne => hne hpos) fun hne => hne hneg
  · rw [hneither, halike]
  · exact fun hone => includes_complement_of_one_sided hone t.fields
  · intro hempty
    rw [isEmpty, Bool.and_eq_true, List.isEmpty_iff, List.isEmpty_iff] at hempty
    exact hboth.mpr hempty

end Timetable.Schedule
