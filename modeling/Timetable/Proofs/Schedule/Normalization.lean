import Timetable.Proofs.Schedule.Reachable

/-!
# Normalized schedules

An unconstrained period accepts everything and has no text. Where one is handed
to a schedule, the lists that are stored in its place hold no such period and
still include the same instants. Nor do texts or the operations bring one about:
a meeting constrains whatever either of its periods constrains, and all other
stored periods are passed on as they are.
-/

namespace Timetable

theorem Period.accepts_of_isUnconstrained {p : Period} (h : p.isUnconstrained = true)
    (x : Assignment) : p.accepts x = true := by
  apply (accepts_iff p x).mpr
  intro scale spans hspans
  have hconstrained := (isUnconstrained_eq_false_iff p).mpr ⟨scale, spans, hspans⟩
  rw [h] at hconstrained
  cases hconstrained

theorem Period.isUnconstrained_never : never.isUnconstrained = false := by decide

namespace Schedule

/-- None of the stored periods is unconstrained. -/
structure IsNormal (schedule : Schedule) : Prop where
  positive : ∀ p ∈ schedule.positive, p.isUnconstrained = false
  negative : ∀ p ∈ schedule.negative, p.isUnconstrained = false

/-- The schedules that texts, lists of periods and the algebra of schedules give rise to. -/
inductive Built : Schedule → Prop
  | parsed {t schedule} (h : parse t = .ok schedule) : Built schedule
  | always : Built always
  | ofPeriods (positive negative) : Built (ofPeriods positive negative)
  | union {a b} (ha : Built a) (hb : Built b) : Built (a.union b)
  | intersection {a b} (ha : Built a) (hb : Built b) : Built (a.intersection b)
  | complement {a} (ha : Built a) : Built a.complement

variable {a b : Schedule}

/-! ## Lists of periods -/

/-- Whatever is stored for two lists of periods includes what the lists themselves describe. -/
theorem includes_ofPeriods_iff (positive negative : List Period) (x : Assignment) :
    (ofPeriods positive negative).includes x = true ↔
      (¬∃ p ∈ negative, p.accepts x = true) ∧
        (positive = [] ∨ ∃ p ∈ positive, p.accepts x = true) := by
  unfold ofPeriods
  split
  · next hnegative =>
      obtain ⟨p, hp, hfree⟩ := List.any_eq_true.mp hnegative
      have hleft : includes ⟨[Period.never], []⟩ x = false := by
        simp [includes, anyAccepts, Period.not_accepts_never]
      rw [hleft]
      refine iff_of_false Bool.false_ne_true ?_
      rintro ⟨hnone, -⟩
      exact hnone ⟨p, hp, Period.accepts_of_isUnconstrained hfree x⟩
  · split
    · next hpositive =>
        obtain ⟨p, hp, hfree⟩ := List.any_eq_true.mp hpositive
        rw [includes_iff]
        apply and_congr_right
        intro _
        exact iff_of_true (Or.inl rfl)
          (Or.inr ⟨p, hp, Period.accepts_of_isUnconstrained hfree x⟩)
    · exact includes_iff _ x

theorem isNormal_ofPeriods (positive negative : List Period) :
    (ofPeriods positive negative).IsNormal := by
  have hconstrained : ∀ {periods : List Period}, ¬periods.any Period.isUnconstrained = true →
      ∀ p ∈ periods, p.isUnconstrained = false := by
    intro periods hnone p hp
    rw [← Bool.not_eq_true]
    intro hfree
    exact hnone (List.any_eq_true.mpr ⟨p, hp, hfree⟩)
  unfold ofPeriods
  split
  · exact ⟨by simpa using Period.isUnconstrained_never, List.forall_mem_nil _⟩
  · next hnegative =>
      split
      · exact ⟨List.forall_mem_nil _, hconstrained hnegative⟩
      · next hpositive => exact ⟨hconstrained hpositive, hconstrained hnegative⟩

/-! ## The algebra -/

theorem isUnconstrained_of_mem_intersect {lefts rights : List Period}
    (h : ∀ p ∈ lefts, p.isUnconstrained = false) :
    ∀ p ∈ Period.intersect lefts rights, p.isUnconstrained = false := by
  intro p hp
  obtain ⟨l, hl, r, -, hmeeting⟩ := Period.mem_intersect.mp hp
  exact Meeting.isUnconstrained_of_period? hmeeting (h l hl)

theorem IsNormal.union (ha : a.IsNormal) (hb : b.IsNormal) : (a.union b).IsNormal := by
  constructor
  · intro p hp
    obtain ⟨-, -, hp⟩ := (mem_positive_union p a b).mp hp
    exact hp.elim (ha.positive p) (hb.positive p)
  · exact isUnconstrained_of_mem_intersect ha.negative

theorem IsNormal.intersection (ha : a.IsNormal) (hb : b.IsNormal) :
    (a.intersection b).IsNormal := by
  constructor
  · intro p hp
    rcases (mem_intersectPositive p a.positive b.positive).mp hp with
      ⟨-, hp⟩ | ⟨-, hp⟩ | ⟨-, -, hp⟩
    · exact hb.positive p hp
    · exact ha.positive p hp
    · rcases (mem_orNever p _).mp hp with hp | ⟨-, rfl⟩
      · exact isUnconstrained_of_mem_intersect ha.positive p hp
      · exact Period.isUnconstrained_never
  · intro p hp
    exact (List.mem_append.mp hp).elim (ha.negative p) (hb.negative p)

/-- No schedule ever stores an unconstrained period, however it was built. -/
theorem Built.isNormal {schedule : Schedule} (h : schedule.Built) : schedule.IsNormal := by
  induction h with
  | parsed h =>
      have hstored := isStored_of_parse h
      exact ⟨fun p hp => (hstored.positive p hp).constrained,
        fun p hp => (hstored.negative p hp).constrained⟩
  | always => exact ⟨List.forall_mem_nil _, List.forall_mem_nil _⟩
  | ofPeriods positive negative => exact isNormal_ofPeriods positive negative
  | union _ _ iha ihb => exact iha.union ihb
  | intersection _ _ iha ihb => exact iha.intersection ihb
  | complement _ iha => exact ⟨iha.negative, iha.positive⟩

/-- A schedule of two lists of periods includes an instant just when none of the negative
periods accepts it and some positive one does, if there are any; no period that it stores is
unconstrained; and neither is any period of a schedule that is built from such schedules, from
texts and by the algebra. -/
theorem ofPeriods_normalizes :
    (∀ positive negative : List Period,
      (∀ t : Instant, (ofPeriods positive negative).includes t.fields = true ↔
        (¬∃ p ∈ negative, p.accepts t.fields = true) ∧
          (positive = [] ∨ ∃ p ∈ positive, p.accepts t.fields = true)) ∧
      ∀ p ∈ (ofPeriods positive negative).positive ++ (ofPeriods positive negative).negative,
        p.isUnconstrained = false) ∧
    ∀ schedule : Schedule, schedule.Built →
      ∀ p ∈ schedule.positive ++ schedule.negative, p.isUnconstrained = false := by
  have hbuilt : ∀ schedule : Schedule, schedule.Built →
      ∀ p ∈ schedule.positive ++ schedule.negative, p.isUnconstrained = false := by
    intro schedule h p hp
    exact (List.mem_append.mp hp).elim (h.isNormal.positive p) (h.isNormal.negative p)
  refine ⟨fun positive negative => ⟨?_, ?_⟩, hbuilt⟩
  · intro t
    exact includes_ofPeriods_iff positive negative t.fields
  · exact hbuilt _ (Built.ofPeriods positive negative)

/-- Unconstrained periods on either side, in schedules that are then combined with a parsed one
by every operation. -/
theorem ofPeriods_normalizes_weekends :
    let weekdays : Period := .ofConstraints [(.weekDay, [⟨1, 5, .inclusive⟩])]
    let weekends : Period := .ofConstraints [(.weekDay, [⟨0, 0, .inclusive⟩, ⟨6, 6, .inclusive⟩])]
    let everyday : Schedule := ofPeriods [weekdays, .unconstrained] [weekends]
    let nothing : Schedule := ofPeriods [weekdays] [weekends, .unconstrained]
    everyday = ⟨[], [weekends]⟩ ∧ nothing = ⟨[.never], []⟩ ∧
    (∀ t : Instant, everyday.includes t.fields = true ↔
      (¬∃ p ∈ [weekends], p.accepts t.fields = true) ∧
        ([weekdays, .unconstrained] = [] ∨
          ∃ p ∈ [weekdays, .unconstrained], p.accepts t.fields = true)) ∧
    ∃ days : Schedule, parse "not hr {22-6}".toList = .ok days ∧
      (((everyday.union days).complement).intersection nothing).Built ∧
      ∀ p ∈ (((everyday.union days).complement).intersection nothing).positive ++
          (((everyday.union days).complement).intersection nothing).negative,
        p.isUnconstrained = false := by
  intro weekdays weekends everyday nothing
  have hdays : parse "not hr {22-6}".toList = .ok
      ⟨[], [.ofConstraints [(.hour, [⟨0, 6, .exclusive⟩, ⟨22, 24, .exclusive⟩])]]⟩ := by
    decide +kernel
  have hbuilt := (((Built.ofPeriods [weekdays, .unconstrained] [weekends]).union
    (Built.parsed hdays)).complement).intersection
      (Built.ofPeriods [weekdays] [weekends, .unconstrained])
  exact ⟨by decide, by decide, (ofPeriods_normalizes.1 _ _).1, _, hdays, hbuilt,
    ofPeriods_normalizes.2 _ hbuilt⟩

end Schedule

end Timetable
