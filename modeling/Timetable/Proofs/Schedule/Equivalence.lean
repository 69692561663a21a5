import Timetable.Calendar.Instant
import Timetable.Proofs.Period.Allowance
import Timetable.Proofs.Period.Order
import Timetable.Proofs.Schedule.Algebra
import Timetable.Proofs.Schedule.Exclusion

/-!
# Equivalence of schedules

Equivalent schedules hold the same periods, and no operation observes more than
which periods a schedule holds: not their order, not how often they are listed.
Up to equivalence, unions and intersections are commutative and associative. The
placeholder for an empty product of positive periods does not disturb that, as
it meets no period at all.
-/

namespace Timetable

variable {periods others lefts lefts' rights rights' : List Period}

namespace Period

theorem eq_nil_iff_of_same (h : ∀ p, p ∈ periods ↔ p ∈ others) : periods = [] ↔ others = [] := by
  simp only [List.eq_nil_iff_forall_not_mem, h]

theorem mem_intersect_congr (hl : ∀ p, p ∈ lefts ↔ p ∈ lefts')
    (hr : ∀ p, p ∈ rights ↔ p ∈ rights') (p : Period) :
    p ∈ intersect lefts rights ↔ p ∈ intersect lefts' rights' := by
  simp only [mem_intersect, hl, hr]

end Period

namespace Schedule

theorem mem_orNever_congr (h : ∀ p, p ∈ periods ↔ p ∈ others) (p : Period) :
    p ∈ orNever periods ↔ p ∈ orNever others := by
  rw [mem_orNever, mem_orNever, h, Period.eq_nil_iff_of_same h]

/-- The placeholder meets no period, so it adds nothing to an intersection. -/
theorem mem_intersect_orNever_left (p : Period) (lefts rights : List Period) :
    p ∈ Period.intersect (orNever lefts) rights ↔ p ∈ Period.intersect lefts rights := by
  have hnever : ∀ r : Period, p.allowance = Period.never.allowance ⊓ r.allowance →
      ¬∀ scale, p.allowance scale ≠ ⊥ := by
    intro r hallows hne
    apply hne .year
    rw [hallows, Pi.inf_apply, Period.allowance_never_year, bot_inf_eq]
  simp only [Period.mem_intersect_iff_allowance, mem_orNever]
  constructor
  · rintro ⟨l, hl | ⟨-, rfl⟩, r, hr, htidy, hallows, hne⟩
    · exact ⟨l, hl, r, hr, htidy, hallows, hne⟩
    · exact absurd hne (hnever r hallows)
  · rintro ⟨l, hl, hmeets⟩
    exact ⟨l, Or.inl hl, hmeets⟩

theorem mem_intersect_orNever_right (p : Period) (lefts rights : List Period) :
    p ∈ Period.intersect lefts (orNever rights) ↔ p ∈ Period.intersect lefts rights := by
  rw [Period.mem_intersect_comm, mem_intersect_orNever_left, Period.mem_intersect_comm]

theorem mem_intersectPositive_congr (hl : ∀ p, p ∈ lefts ↔ p ∈ lefts')
    (hr : ∀ p, p ∈ rights ↔ p ∈ rights') (p : Period) :
    p ∈ intersectPositive lefts rights ↔ p ∈ intersectPositive lefts' rights' := by
  simp only [mem_intersectPositive, ne_eq, hl, hr, Period.eq_nil_iff_of_same hl,
    Period.eq_nil_iff_of_same hr, mem_orNever_congr (Period.mem_intersect_congr hl hr)]

theorem mem_intersectPositive_comm (p : Period) (lefts rights : List Period) :
    p ∈ intersectPositive lefts rights ↔ p ∈ intersectPositive rights lefts := by
  have hswap : p ∈ orNever (Period.intersect lefts rights) ↔
      p ∈ orNever (Period.intersect rights lefts) :=
    mem_orNever_congr (fun q => Period.mem_intersect_comm q lefts rights) p
  rw [mem_intersectPositive, mem_intersectPositive, hswap, or_left_comm]
  exact or_congr_right (or_congr_right and_left_comm)

theorem mem_intersectPositive_assoc (p : Period) (firsts seconds thirds : List Period) :
    p ∈ intersectPositive (intersectPositive firsts seconds) thirds ↔
      p ∈ intersectPositive firsts (intersectPositive seconds thirds) := by
  -- An empty list passes the other one on; else both products are taken, whichever is empty.
  by_cases hf : firsts = []
  · simp [hf]
  by_cases hs : seconds = []
  · simp [hs]
  by_cases ht : thirds = []
  · simp [ht]
  rw [intersectPositive_of_ne_nil hf hs, intersectPositive_of_ne_nil hs ht,
    intersectPositive_of_ne_nil (orNever_ne_nil _) ht,
    intersectPositive_of_ne_nil hf (orNever_ne_nil _)]
  apply mem_orNever_congr
  intro q
  rw [mem_intersect_orNever_left, mem_intersect_orNever_right, Period.mem_intersect_assoc]

/-- Once some list of positive periods is empty, so is that of any union. -/
theorem positive_union_assoc (a b c : Schedule) :
    ((a.union b).union c).positive = (a.union (b.union c)).positive := by
  by_cases ha : a.positive = []
  · simp [union, ha]
  by_cases hb : b.positive = []
  · simp [union, hb]
  by_cases hc : c.positive = []
  · simp [union, hc]
  simp [union, ha, hb, hc]

/-- Unions and intersections are commutative and associative up to equivalence. -/
theorem union_intersection_comm_assoc (a b c : Schedule) :
    (a.union b).Equivalent (b.union a) ∧ (a.intersection b).Equivalent (b.intersection a) ∧
    ((a.union b).union c).Equivalent (a.union (b.union c)) ∧
    ((a.intersection b).intersection c).Equivalent (a.intersection (b.intersection c)) := by
  refine ⟨⟨?_, ?_⟩, ⟨?_, ?_⟩, ⟨?_, ?_⟩, ⟨?_, ?_⟩⟩
  · intro p
    rw [mem_positive_union, mem_positive_union, and_left_comm, or_comm]
  · exact fun p => Period.mem_intersect_comm p a.negative b.negative
  · exact fun p => mem_intersectPositive_comm p a.positive b.positive
  · intro p
    simp only [intersection, List.mem_append, or_comm]
  · intro p
    rw [positive_union_assoc]
  · exact fun p => Period.mem_intersect_assoc p a.negative b.negative c.negative
  · exact fun p => mem_intersectPositive_assoc p a.positive b.positive c.positive
  · intro p
    simp only [intersection, List.mem_append, or_assoc]

variable {a a' b b' : Schedule}

/-- Schedules have the same distinct periods in order exactly when they are equivalent. -/
theorem key_eq_iff (a b : Schedule) : a.key = b.key ↔ a.Equivalent b := by
  rw [key, key, Prod.mk.injEq, ascending_eq_iff, ascending_eq_iff]
  rfl

theorem Equivalent.isEmpty_eq (h : a.Equivalent a') : a.isEmpty = a'.isEmpty := by
  rw [Bool.eq_iff_iff]
  simp only [isEmpty, Bool.and_eq_true, List.isEmpty_iff, Period.eq_nil_iff_of_same h.1,
    Period.eq_nil_iff_of_same h.2]

theorem Equivalent.includes_eq (h : a.Equivalent a') (x : Assignment) :
    a.includes x = a'.includes x := by
  rw [Bool.eq_iff_iff, includes_iff, includes_iff, Period.eq_nil_iff_of_same h.1]
  simp only [h.1, h.2]

theorem Equivalent.union (ha : a.Equivalent a') (hb : b.Equivalent b') :
    (a.union b).Equivalent (a'.union b') := by
  constructor
  · intro p
    simp only [mem_positive_union, ne_eq, Period.eq_nil_iff_of_same ha.1,
      Period.eq_nil_iff_of_same hb.1, ha.1, hb.1]
  · exact Period.mem_intersect_congr ha.2 hb.2

theorem Equivalent.intersection (ha : a.Equivalent a') (hb : b.Equivalent b') :
    (a.intersection b).Equivalent (a'.intersection b') := by
  constructor
  · exact mem_intersectPositive_congr ha.1 hb.1
  · intro p
    simp only [Schedule.intersection, List.mem_append, ha.2, hb.2]

theorem Equivalent.complement (h : a.Equivalent a') : a.complement.Equivalent a'.complement :=
  ⟨h.2, h.1⟩

theorem Equivalent.isExclusive_eq (ha : a.Equivalent a') (hb : b.Equivalent b') :
    a.isExclusive b = a'.isExclusive b' := by
  have hmeet := Period.eq_nil_iff_of_same (Period.mem_intersect_congr ha.1 hb.1)
  rw [Bool.eq_iff_iff, isExclusive_iff_intersect, isExclusive_iff_intersect, hmeet, ne_eq, ne_eq,
    Period.eq_nil_iff_of_same ha.1, Period.eq_nil_iff_of_same hb.1]

/-- Equivalent schedules have the same key, include the same instants and are empty alike, and
so are what the algebra makes of them and what it tells of them. -/
theorem congruence_of_equivalent (ha : a.Equivalent a') (hb : b.Equivalent b') :
    a.key = a'.key ∧ (∀ t : Instant, a.includes t.fields = a'.includes t.fields) ∧
    a.isEmpty = a'.isEmpty ∧
    (a.union b).Equivalent (a'.union b') ∧
    (a.intersection b).Equivalent (a'.intersection b') ∧
    a.complement.Equivalent a'.complement ∧
    a.isExclusive b = a'.isExclusive b' ∧ a.overlaps b = a'.overlaps b' := by
  have hexclusive := ha.isExclusive_eq hb
  refine ⟨(key_eq_iff a a').mpr ha, fun t => ha.includes_eq t.fields, ha.isEmpty_eq,
    ha.union hb, ha.intersection hb, ha.complement, hexclusive, ?_⟩
  rw [overlaps, overlaps, hexclusive]

/-- Two schedules that list the same periods as their partners, in another order and some of
them more than once. -/
theorem congruence_of_reordered :
    let mornings : Period := .ofConstraints [(.hour, [⟨6, 12, .exclusive⟩])]
    let noons : Period := .ofConstraints [(.hour, [⟨12, 13, .exclusive⟩])]
    let weekends : Period := .ofConstraints [(.weekDay, [⟨0, 0, .inclusive⟩, ⟨6, 6, .inclusive⟩])]
    let summers : Period := .ofConstraints [(.month, [⟨6, 8, .inclusive⟩])]
    let a : Schedule := ⟨[mornings, weekends], [noons]⟩
    let a' : Schedule := ⟨[weekends, mornings, weekends], [noons, noons]⟩
    let b : Schedule := ⟨[summers, weekends], [mornings, noons]⟩
    let b' : Schedule := ⟨[weekends, summers], [noons, mornings, noons]⟩
    (a ≠ a' ∧ b ≠ b') ∧ (a.Equivalent a' ∧ b.Equivalent b') ∧
    a.key = a'.key ∧ (∀ t : Instant, a.includes t.fields = a'.includes t.fields) ∧
    a.isEmpty = a'.isEmpty ∧
    (a.union b).Equivalent (a'.union b') ∧
    (a.intersection b).Equivalent (a'.intersection b') ∧
    a.complement.Equivalent a'.complement ∧
    a.isExclusive b = a'.isExclusive b' ∧ a.overlaps b = a'.overlaps b' := by
  intro mornings noons weekends summers a a' b b'
  have ha : a.Equivalent a' := by decide
  have hb : b.Equivalent b' := by decide
  exact ⟨⟨by decide, by decide⟩, ⟨ha, hb⟩, congruence_of_equivalent ha hb⟩

end Schedule

end Timetable
