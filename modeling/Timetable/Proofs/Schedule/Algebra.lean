import Timetable.Calendar.Instant
import Timetable.Proofs.Period.Meeting
import Timetable.Schedule.Algebra

/-!
# What unions and intersections include

The periods of a union or an intersection are listed by membership, with the
placeholder that stands in for an empty product. Positive periods allow an
assignment when one of them accepts it or when there are none at all. With that
rule the intersection of two schedules includes just
what both include, while their union leaves out only what both leave out on the
same ground: no positive period on either side, or a negative one on each.
-/

namespace Timetable

variable {x : Assignment}

theorem Period.not_accepts_never (x : Assignment) : never.accepts x = false := by
  apply Bool.eq_false_iff.mpr
  intro h
  have hyear := (accepts_iff never x).mp h .year [] rfl
  simp at hyear

namespace Schedule

/-- The periods, or the one that matches nothing if there are none. -/
def orNever (periods : List Period) : List Period :=
  if periods.isEmpty then [Period.never] else periods

theorem mem_orNever (p : Period) (periods : List Period) :
    p ∈ orNever periods ↔ p ∈ periods ∨ periods = [] ∧ p = Period.never := by
  cases periods <;> simp [orNever]

/-- The placeholder accepts nothing, just as no periods do. -/
theorem anyAccepts_orNever (periods : List Period) (x : Assignment) :
    anyAccepts (orNever periods) x = anyAccepts periods x := by
  cases periods with
  | nil => simp [orNever, anyAccepts, Period.not_accepts_never]
  | cons p ps => rfl

theorem orNever_ne_nil (periods : List Period) : orNever periods ≠ [] := by
  cases periods <;> simp [orNever]

@[simp] theorem intersectPositive_nil_left (rights : List Period) :
    intersectPositive [] rights = rights := if_pos rfl

@[simp] theorem intersectPositive_nil_right (lefts : List Period) :
    intersectPositive lefts [] = lefts := by
  cases lefts <;> rfl

theorem intersectPositive_of_ne_nil {lefts rights : List Period} (hl : lefts ≠ [])
    (hr : rights ≠ []) :
    intersectPositive lefts rights = orNever (Period.intersect lefts rights) := by
  simp [intersectPositive, hl, hr, orNever]

/-- No positive periods on one side leave the other side as it is. -/
theorem mem_intersectPositive (p : Period) (lefts rights : List Period) :
    p ∈ intersectPositive lefts rights ↔
      (lefts = [] ∧ p ∈ rights) ∨ (rights = [] ∧ p ∈ lefts) ∨
        lefts ≠ [] ∧ rights ≠ [] ∧ p ∈ orNever (Period.intersect lefts rights) := by
  by_cases hl : lefts = []
  · simp [hl]
  · by_cases hr : rights = []
    · simp [hr]
    · simp [hl, hr, intersectPositive_of_ne_nil hl hr]

theorem mem_positive_union (p : Period) (a b : Schedule) :
    p ∈ (a.union b).positive ↔
      a.positive ≠ [] ∧ b.positive ≠ [] ∧ (p ∈ a.positive ∨ p ∈ b.positive) := by
  by_cases ha : a.positive = [] <;> by_cases hb : b.positive = [] <;> simp [union, ha, hb]

/-- Whether positive periods leave room for an assignment; no periods leave room for all. -/
def allows (positive : List Period) (x : Assignment) : Bool :=
  positive.isEmpty || anyAccepts positive x

theorem allows_of_ne_nil {positive : List Period} (h : positive ≠ []) (x : Assignment) :
    allows positive x = anyAccepts positive x := by
  simp [allows, h]

theorem includes_eq (schedule : Schedule) (x : Assignment) :
    schedule.includes x =
      (!anyAccepts schedule.negative x && allows schedule.positive x) := rfl

theorem allows_iff (positive : List Period) (x : Assignment) :
    allows positive x = true ↔ positive = [] ∨ ∃ p ∈ positive, p.accepts x = true := by
  rw [allows, Bool.or_eq_true, List.isEmpty_iff, anyAccepts_iff]

theorem includes_iff (schedule : Schedule) (x : Assignment) :
    schedule.includes x = true ↔
      (¬∃ p ∈ schedule.negative, p.accepts x = true) ∧
        (schedule.positive = [] ∨ ∃ p ∈ schedule.positive, p.accepts x = true) := by
  rw [includes_eq, Bool.and_eq_true, Bool.not_eq_true', ← Bool.not_eq_true, anyAccepts_iff,
    allows_iff]

/-- The positive periods of an intersection leave room for what both lists leave room
for, also when no pair of periods meets. -/
theorem allows_intersectPositive (lefts rights : List Period) (x : Assignment) :
    allows (intersectPositive lefts rights) x = (allows lefts x && allows rights x) := by
  by_cases hl : lefts = []
  · simp [hl, allows]
  by_cases hr : rights = []
  · simp [hr, allows]
  calc
    allows (intersectPositive lefts rights) x
      = anyAccepts (orNever (Period.intersect lefts rights)) x := by
        rw [intersectPositive_of_ne_nil hl hr, allows_of_ne_nil (orNever_ne_nil _)]
    _ = (anyAccepts lefts x && anyAccepts rights x) := by
        rw [anyAccepts_orNever, anyAccepts_intersect]
    _ = (allows lefts x && allows rights x) := by
        rw [allows_of_ne_nil hl, allows_of_ne_nil hr]

theorem allows_union (a b : Schedule) (x : Assignment) :
    allows (a.union b).positive x = (allows a.positive x || allows b.positive x) := by
  cases ha : a.positive with
  | nil => simp [union, allows, ha]
  | cons p ps =>
      cases hb : b.positive with
      | nil => simp [union, allows, ha, hb]
      | cons q qs =>
          have happ := anyAccepts_append (p :: ps) (q :: qs) x
          simpa [union, allows, ha, hb] using happ

/-- An intersection includes just the instants that both schedules include. -/
theorem includes_intersection_iff (a b : Schedule) (t : Instant) :
    (a.intersection b).includes t.fields = true ↔
      a.includes t.fields = true ∧ b.includes t.fields = true := by
  have hpos : allows (a.intersection b).positive t.fields =
      (allows a.positive t.fields && allows b.positive t.fields) :=
    allows_intersectPositive a.positive b.positive t.fields
  have hneg : anyAccepts (a.intersection b).negative t.fields =
      (anyAccepts a.negative t.fields || anyAccepts b.negative t.fields) :=
    anyAccepts_append a.negative b.negative t.fields
  simp only [includes_eq, hpos, hneg, Bool.not_or, Bool.and_eq_true]
  constructor
  · rintro ⟨⟨hna, hnb⟩, hpa, hpb⟩
    exact ⟨⟨hna, hpa⟩, hnb, hpb⟩
  · rintro ⟨⟨hna, hpa⟩, hnb, hpb⟩
    exact ⟨⟨hna, hnb⟩, hpa, hpb⟩

/-- A union excludes an instant when a negative period of each schedule accepts it, or
when both schedules have positive periods and none of these does. So it includes all that
either schedule includes, and no more than that where there are no negative periods. -/
theorem includes_union_iff (a b : Schedule) (t : Instant) :
    ((a.union b).includes t.fields = true ↔
      (a.positive = [] ∨ b.positive = [] ∨
        (∃ p ∈ a.positive, p.accepts t.fields = true) ∨
        ∃ p ∈ b.positive, p.accepts t.fields = true) ∧
      ¬((∃ p ∈ a.negative, p.accepts t.fields = true) ∧
        ∃ p ∈ b.negative, p.accepts t.fields = true)) ∧
    (a.includes t.fields = true ∨ b.includes t.fields = true →
      (a.union b).includes t.fields = true) ∧
    (a.negative = [] ∧ b.negative = [] → (a.union b).includes t.fields = true →
      a.includes t.fields = true ∨ b.includes t.fields = true) := by
  have hneg : anyAccepts (a.union b).negative t.fields =
      (anyAccepts a.negative t.fields && anyAccepts b.negative t.fields) :=
    anyAccepts_intersect a.negative b.negative t.fields
  have hunion : (a.union b).includes t.fields = true ↔
      (allows a.positive t.fields = true ∨ allows b.positive t.fields = true) ∧
        ¬(anyAccepts a.negative t.fields = true ∧ anyAccepts b.negative t.fields = true) := by
    rw [includes_eq, allows_union, hneg, Bool.and_eq_true, Bool.or_eq_true, Bool.not_eq_true',
      ← Bool.not_eq_true, Bool.and_eq_true, and_comm]
  refine ⟨?_, ?_, ?_⟩
  · rw [hunion, allows_iff, allows_iff, anyAccepts_iff, anyAccepts_iff]
    apply and_congr_left
    intro _
    constructor
    · rintro ((ha | ha) | hb | hb)
      · exact Or.inl ha
      · exact Or.inr (Or.inr (Or.inl ha))
      · exact Or.inr (Or.inl hb)
      · exact Or.inr (Or.inr (Or.inr hb))
    · rintro (ha | hb | ha | hb)
      · exact Or.inl (Or.inl ha)
      · exact Or.inr (Or.inl hb)
      · exact Or.inl (Or.inr ha)
      · exact Or.inr (Or.inr hb)
  · intro h
    rw [hunion]
    simp only [includes_eq, Bool.and_eq_true, Bool.not_eq_true'] at h
    rcases h with ⟨hna, hpa⟩ | ⟨hnb, hpb⟩
    · exact ⟨Or.inl hpa, fun hboth => by simp [hna] at hboth⟩
    · exact ⟨Or.inr hpb, fun hboth => by simp [hnb] at hboth⟩
  · rintro ⟨hna, hnb⟩ h
    rcases (hunion.mp h).1 with hpa | hpb
    · exact Or.inl (by simp [includes_eq, hna, hpa])
    · exact Or.inr (by simp [includes_eq, hnb, hpb])

end Schedule

end Timetable
