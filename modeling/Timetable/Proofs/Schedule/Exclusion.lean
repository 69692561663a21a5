import Timetable.Proofs.Period.Witness
import Timetable.Proofs.Schedule.Algebra

/-!
# Schedules that exclude each other

Two schedules exclude each other when both have positive periods and no
assignment suits a positive period of each. This is symmetric, and then no
instant is included by both schedules or by their intersection, whatever their
negative periods are.
-/

namespace Timetable.Schedule

variable {a b : Schedule}

theorem isExclusive_iff_intersect (a b : Schedule) :
    a.isExclusive b = true ↔ a.positive ≠ [] ∧ b.positive ≠ [] ∧
      Period.intersect a.positive b.positive = [] := by
  simp [isExclusive, and_assoc]

/-- An assignment that is accepted on both sides keeps schedules from being exclusive. -/
theorem isExclusive_iff_accepts (ha : ∀ p ∈ a.positive, p.FitsFields)
    (hb : ∀ p ∈ b.positive, p.FitsFields) :
    a.isExclusive b = true ↔ a.positive ≠ [] ∧ b.positive ≠ [] ∧
      ¬∃ x, Assignment.FitsFields x ∧ (∃ p ∈ a.positive, p.accepts x = true) ∧
        ∃ p ∈ b.positive, p.accepts x = true := by
  rw [isExclusive_iff_intersect, Period.intersect_eq_nil_iff ha hb]

theorem isExclusive_comm (ha : ∀ p ∈ a.positive, p.FitsFields)
    (hb : ∀ p ∈ b.positive, p.FitsFields) : a.isExclusive b = b.isExclusive a := by
  rw [Bool.eq_iff_iff, isExclusive_iff_accepts ha hb, isExclusive_iff_accepts hb ha,
    and_left_comm]
  simp only [and_comm]

/-- The positive periods of exclusive schedules leave room for no common assignment. -/
theorem allows_and_allows_of_isExclusive (h : a.isExclusive b = true) (x : Assignment) :
    (allows a.positive x && allows b.positive x) = false := by
  obtain ⟨hane, hbne, hmeet⟩ := (isExclusive_iff_intersect a b).mp h
  calc
    (allows a.positive x && allows b.positive x)
      = (anyAccepts a.positive x && anyAccepts b.positive x) := by
        rw [allows_of_ne_nil hane, allows_of_ne_nil hbne]
    _ = anyAccepts (Period.intersect a.positive b.positive) x :=
        (anyAccepts_intersect a.positive b.positive x).symm
    _ = false := by rw [hmeet, anyAccepts_nil]

/-- Schedules are exclusive exactly when both have positive periods and no assignment of the
fields' size suits a positive period of each. So being exclusive and overlapping are
symmetric, and exclusive schedules have no instant in common. -/
theorem isExclusive_iff (ha : ∀ p ∈ a.positive, p.FitsFields)
    (hb : ∀ p ∈ b.positive, p.FitsFields) :
    (a.isExclusive b = true ↔ a.positive ≠ [] ∧ b.positive ≠ [] ∧
      ¬∃ x, Assignment.FitsFields x ∧ (∃ p ∈ a.positive, p.accepts x = true) ∧
        ∃ p ∈ b.positive, p.accepts x = true) ∧
    a.isExclusive b = b.isExclusive a ∧ a.overlaps b = b.overlaps a ∧
    (a.isExclusive b = true → ∀ t : Instant,
      ¬(a.includes t.fields = true ∧ b.includes t.fields = true) ∧
        (a.intersection b).includes t.fields = false) := by
  have hcomm := isExclusive_comm ha hb
  refine ⟨isExclusive_iff_accepts ha hb, hcomm, ?_, ?_⟩
  · rw [overlaps, overlaps, hcomm]
  · intro h t
    have hnone := allows_and_allows_of_isExclusive h t.fields
    constructor
    · rintro ⟨hat, hbt⟩
      rw [includes_eq, Bool.and_eq_true] at hat hbt
      rw [hat.2, hbt.2] at hnone
      cases hnone
    · rw [includes_eq]
      change (_ && allows (intersectPositive a.positive b.positive) t.fields) = false
      rw [allows_intersectPositive, hnone, Bool.and_false]

/-- Mornings of working days and summer weekends share no day of the week, although each
constrains a scale that the other does not. -/
theorem isExclusive_mornings_iff :
    let a : Schedule :=
      ⟨[.ofConstraints [(.weekDay, [⟨1, 5, .inclusive⟩]), (.hour, [⟨6, 12, .exclusive⟩])]], []⟩
    let b : Schedule :=
      ⟨[.ofConstraints [(.month, [⟨6, 8, .inclusive⟩]),
        (.weekDay, [⟨0, 0, .inclusive⟩, ⟨6, 6, .inclusive⟩])]], []⟩
    ((∀ p ∈ a.positive, p.FitsFields) ∧ ∀ p ∈ b.positive, p.FitsFields) ∧
    a.isExclusive b = true ∧
    (a.isExclusive b = true ↔ a.positive ≠ [] ∧ b.positive ≠ [] ∧
      ¬∃ x, Assignment.FitsFields x ∧ (∃ p ∈ a.positive, p.accepts x = true) ∧
        ∃ p ∈ b.positive, p.accepts x = true) ∧
    a.isExclusive b = b.isExclusive a ∧ a.overlaps b = b.overlaps a ∧
    (a.isExclusive b = true → ∀ t : Instant,
      ¬(a.includes t.fields = true ∧ b.includes t.fields = true) ∧
        (a.intersection b).includes t.fields = false) := by
  intro a b
  have ha : ∀ p ∈ a.positive, p.FitsFields := by decide
  have hb : ∀ p ∈ b.positive, p.FitsFields := by decide
  exact ⟨⟨ha, hb⟩, by decide, isExclusive_iff ha hb⟩

end Timetable.Schedule
