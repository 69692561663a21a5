import Mathlib.Data.Finset.SDiff
import Mathlib.Order.WithBot
import Timetable.Proofs.Period.Meeting
import Timetable.Proofs.Span.Gathering

/-!
# What periods allow

A period allows each scale a finite set of values, or all values if it does not
constrain the scale. Where two periods meet, each scale is left with the infimum
of what they allow it, so meetings commute and associate as infima do. Periods of
meetings have the fewest spans for their values, hence they are equal as soon as
they allow the same. So intersecting lists of periods gives the same periods in
any order and with any grouping of the lists.
-/

namespace Timetable

/-- What each scale is allowed; the top element allows all values. -/
abbrev Allowance := Scale → WithTop (Finset Nat)

namespace Allowance

/-- What a list of values allows; without a list all values are allowed. -/
def ofValues? : Option (List Nat) → WithTop (Finset Nat)
  | some values => (values.toFinset : Finset Nat)
  | none => ⊤

@[simp] theorem ofValues?_some (values : List Nat) :
    ofValues? (some values) = (values.toFinset : Finset Nat) := rfl

@[simp] theorem ofValues?_none : ofValues? none = ⊤ := rfl

theorem ofValues?_eq_bot_iff (values? : Option (List Nat)) :
    ofValues? values? = ⊥ ↔ values? = some [] := by
  cases values? with
  | none => simp
  | some values =>
      rw [ofValues?_some, ← WithTop.coe_bot, WithTop.coe_inj, Finset.bot_eq_empty,
        List.toFinset_eq_empty_iff, Option.some.injEq]

/-- Ascending lists that allow the same are the same. -/
theorem ofValues?_inj {values? others? : Option (List Nat)}
    (hvalues : ∀ values ∈ values?, values.Pairwise (· < ·))
    (hothers : ∀ others ∈ others?, others.Pairwise (· < ·))
    (h : ofValues? values? = ofValues? others?) : values? = others? := by
  cases values? with
  | none =>
      cases others? with
      | none => rfl
      | some others => simp at h
  | some values =>
      cases others? with
      | none => simp at h
      | some others =>
          have hset : values.toFinset = others.toFinset := WithTop.coe_injective h
          have heq : values = others := by
            apply List.Pairwise.eq_of_mem_iff (hvalues values rfl) (hothers others rfl)
            intro v
            rw [← List.mem_toFinset, hset, List.mem_toFinset]
          rw [heq]

end Allowance

namespace Period

/-- What the period allows each scale. -/
def allowance (p : Period) : Allowance := fun scale =>
  Allowance.ofValues? ((p.spans? scale).map Span.distinctValues)

/-- The period constrains scales by the fewest spans for the values that it allows them. -/
def IsTidy (p : Period) : Prop :=
  ∀ scale spans, p.spans? scale = some spans →
    Span.ofAscending scale.boundary (Span.distinctValues spans) = spans

theorem IsTidy.map_distinctValues {p : Period} (h : p.IsTidy) (scale : Scale) :
    ((p.spans? scale).map Span.distinctValues).map (Span.ofAscending scale.boundary) =
      p.spans? scale := by
  cases hspans : p.spans? scale with
  | none => rfl
  | some spans => rw [Option.map_some, Option.map_some, h scale spans hspans]

/-- Tidy periods are known by what they allow. -/
theorem IsTidy.eq_of_allowance_eq {p q : Period} (hp : p.IsTidy) (hq : q.IsTidy)
    (h : p.allowance = q.allowance) : p = q := by
  have hascending : ∀ (spans? : Option (List Span)),
      ∀ values ∈ spans?.map Span.distinctValues, values.Pairwise (· < ·) := by
    intro spans? values hvalues
    obtain ⟨spans, -, rfl⟩ := Option.map_eq_some_iff.mp hvalues
    exact Span.pairwise_distinctValues spans
  ext1
  funext scale
  have hvalues : (p.spans? scale).map Span.distinctValues =
      (q.spans? scale).map Span.distinctValues :=
    Allowance.ofValues?_inj (hascending _) (hascending _) (congrFun h scale)
  rw [← hp.map_distinctValues scale, hvalues, hq.map_distinctValues scale]

theorem allowance_never_year : never.allowance .year = ⊥ := rfl

end Period

namespace Meeting

variable {left right p : Period}

/-- A meeting leaves to each scale what both periods allow it. -/
theorem ofValues?_valuesAt (left right : Period) (scale : Scale) :
    Allowance.ofValues? (valuesAt? left right scale) =
      (left.allowance ⊓ right.allowance) scale := by
  rw [Pi.inf_apply]
  unfold valuesAt? Period.allowance
  cases left.spans? scale with
  | none => cases right.spans? scale <;> simp
  | some l =>
      cases right.spans? scale with
      | none => simp
      | some r =>
          have hset : ((Span.distinctValues l).filter (Span.anyCovers r)).toFinset =
              (Span.distinctValues l).toFinset ⊓ (Span.distinctValues r).toFinset := by
            ext v
            simp [Span.mem_distinctValues]
          simp only [Option.map_some, Allowance.ofValues?_some, hset, WithTop.coe_inf]

/-- The period of a meeting has the fewest spans for the values that the meeting left. -/
theorem isTidy_of_period? (h : (ofPeriods left right).period? = some p) : p.IsTidy := by
  intro scale spans hspans
  rw [spans?_of_period? h scale] at hspans
  obtain ⟨values, hvalues, rfl⟩ := Option.map_eq_some_iff.mp hspans
  rw [Span.distinctValues_ofAscending (pairwise_valuesAt hvalues)]

theorem allowance_of_period? (h : (ofPeriods left right).period? = some p) :
    p.allowance = left.allowance ⊓ right.allowance := by
  funext scale
  rw [← ofValues?_valuesAt, Period.allowance, spans?_of_period? h scale]
  cases hvalues : valuesAt? left right scale with
  | none => rfl
  | some values =>
      rw [Option.map_some, Option.map_some,
        Span.distinctValues_ofAscending (pairwise_valuesAt hvalues)]

/-- Two periods meet unless they allow some scale no value in common. -/
theorem exists_period?_iff_ne_bot (left right : Period) :
    (∃ p, (ofPeriods left right).period? = some p) ↔
      ∀ scale, (left.allowance ⊓ right.allowance) scale ≠ ⊥ := by
  rw [← Option.ne_none_iff_exists', ne_eq, period?_eq_none_iff, not_exists]
  apply forall_congr'
  intro scale
  rw [← ofValues?_valuesAt, ne_eq, Allowance.ofValues?_eq_bot_iff]

/-- Two periods meet in the one tidy period that allows what both of them allow, as long as
that leaves values to every scale. -/
theorem period?_eq_some_iff (left right p : Period) :
    (ofPeriods left right).period? = some p ↔
      p.IsTidy ∧ p.allowance = left.allowance ⊓ right.allowance ∧
        ∀ scale, p.allowance scale ≠ ⊥ := by
  constructor
  · intro h
    have hallows := allowance_of_period? h
    refine ⟨isTidy_of_period? h, hallows, ?_⟩
    rw [hallows]
    exact (exists_period?_iff_ne_bot left right).mp ⟨p, h⟩
  · rintro ⟨htidy, hallows, hne⟩
    rw [hallows] at hne
    obtain ⟨q, hq⟩ := (exists_period?_iff_ne_bot left right).mpr hne
    have hsame : p.allowance = q.allowance := hallows.trans (allowance_of_period? hq).symm
    rw [hq, htidy.eq_of_allowance_eq (isTidy_of_period? hq) hsame]

end Meeting

namespace Period

theorem mem_intersect_iff_allowance (p : Period) (firsts seconds : List Period) :
    p ∈ intersect firsts seconds ↔
      ∃ a ∈ firsts, ∃ b ∈ seconds, p.IsTidy ∧ p.allowance = a.allowance ⊓ b.allowance ∧
        ∀ scale, p.allowance scale ≠ ⊥ := by
  simp only [mem_intersect, Meeting.period?_eq_some_iff]

/-- The order of two lists does not matter for the periods in which they intersect. -/
theorem mem_intersect_comm (p : Period) (firsts seconds : List Period) :
    p ∈ intersect firsts seconds ↔ p ∈ intersect seconds firsts := by
  simp only [mem_intersect_iff_allowance]
  constructor
  · rintro ⟨a, ha, b, hb, hp⟩
    exact ⟨b, hb, a, ha, inf_comm a.allowance b.allowance ▸ hp⟩
  · rintro ⟨b, hb, a, ha, hp⟩
    exact ⟨a, ha, b, hb, inf_comm b.allowance a.allowance ▸ hp⟩

/-- A period in which three lists intersect allows what one period of each list allows. A
scale that runs out of values in the first meeting has none in the second one either. -/
theorem mem_intersect_intersect (p : Period) (firsts seconds thirds : List Period) :
    p ∈ intersect (intersect firsts seconds) thirds ↔
      ∃ a ∈ firsts, ∃ b ∈ seconds, ∃ c ∈ thirds, p.IsTidy ∧
        p.allowance = a.allowance ⊓ b.allowance ⊓ c.allowance ∧
        ∀ scale, p.allowance scale ≠ ⊥ := by
  rw [mem_intersect_iff_allowance]
  constructor
  · rintro ⟨m, hm, c, hc, htidy, hallows, hne⟩
    obtain ⟨a, ha, b, hb, -, hmallows, -⟩ :=
      (mem_intersect_iff_allowance m firsts seconds).mp hm
    rw [hmallows] at hallows
    exact ⟨a, ha, b, hb, c, hc, htidy, hallows, hne⟩
  · rintro ⟨a, ha, b, hb, c, hc, htidy, hallows, hne⟩
    -- What three periods leave to a scale is below what the first two leave to it.
    have hmeet : ∀ scale, (a.allowance ⊓ b.allowance) scale ≠ ⊥ := by
      intro scale hbot
      apply hne scale
      rw [hallows, Pi.inf_apply, hbot, bot_inf_eq]
    obtain ⟨m, hm⟩ := (Meeting.exists_period?_iff_ne_bot a b).mpr hmeet
    refine ⟨m, mem_intersect.mpr ⟨a, ha, b, hb, hm⟩, c, hc, htidy, ?_, hne⟩
    rw [hallows, Meeting.allowance_of_period? hm]

/-- The grouping of three lists does not matter for the periods in which they intersect. -/
theorem mem_intersect_assoc (p : Period) (firsts seconds thirds : List Period) :
    p ∈ intersect (intersect firsts seconds) thirds ↔
      p ∈ intersect firsts (intersect seconds thirds) := by
  rw [mem_intersect_comm p firsts (intersect seconds thirds), mem_intersect_intersect,
    mem_intersect_intersect]
  have hgroup : ∀ a b c : Period, a.allowance ⊓ b.allowance ⊓ c.allowance =
      b.allowance ⊓ c.allowance ⊓ a.allowance := by
    intro a b c
    rw [inf_assoc, inf_comm]
  constructor
  · rintro ⟨a, ha, b, hb, c, hc, hp⟩
    exact ⟨b, hb, c, hc, a, ha, hgroup a b c ▸ hp⟩
  · rintro ⟨b, hb, c, hc, a, ha, hp⟩
    exact ⟨a, ha, b, hb, c, hc, (hgroup a b c).symm ▸ hp⟩

end Period

end Timetable
