import Mathlib.Data.List.ProdSigma
import Timetable.Proofs.Machine.Schedules
import Timetable.Proofs.Period.Witness

/-!
# Intersections as products

Two periods meet when some assignment suits both. The intersection of two lists of
periods goes through all pairs of a left period and a right one, left by left, and
lists one period for each pair that meets and none for the others. That period
accepts what both of the pair do and has no constraints besides theirs, each of them
by coalesced spans.
-/

namespace Timetable

namespace Period

/-- Some assignment of the fields' size is accepted by both periods. -/
def Meets (left right : Period) : Prop :=
  ∃ x, Assignment.FitsFields x ∧ left.accepts x = true ∧ right.accepts x = true

/-- The period accepts what both periods accept, and constrains what either of them does, by
coalesced spans of which no scale is without. -/
structure IsConjunction (left right p : Period) : Prop where
  accepts_iff : ∀ x, p.accepts x = true ↔ left.accepts x = true ∧ right.accepts x = true
  constrains_iff : ∀ scale,
    p.constrains scale = true ↔ left.constrains scale = true ∨ right.constrains scale = true
  coalesced : ∀ scale spans, p.spans? scale = some spans →
    spans ≠ [] ∧ Span.IsCoalesced scale.boundary spans

/-- The periods are the conjunctions of the pairs that meet, in the order of these. -/
inductive ListsConjunctions : List (Period × Period) → List Period → Prop
  | nil : ListsConjunctions [] []
  | meeting {left right p pairs periods} (hmeets : left.Meets right)
      (hp : IsConjunction left right p) (tail : ListsConjunctions pairs periods) :
      ListsConjunctions ((left, right) :: pairs) (p :: periods)
  | apart {left right pairs periods} (hapart : ¬left.Meets right)
      (tail : ListsConjunctions pairs periods) :
      ListsConjunctions ((left, right) :: pairs) periods

theorem constrains_iff (p : Period) (scale : Scale) :
    p.constrains scale = true ↔ ∃ spans, p.spans? scale = some spans := Option.isSome_iff_exists

end Period

namespace Meeting

open Period (IsConjunction)

variable {left right p : Period}

/-- The values of a meeting that has a period are gathered into some spans. -/
theorem coalesced_of_period? (h : (ofPeriods left right).period? = some p) {scale : Scale}
    {spans : List Span} (hspans : p.spans? scale = some spans) :
    spans ≠ [] ∧ Span.IsCoalesced scale.boundary spans := by
  rw [spans?_of_period? h scale] at hspans
  obtain ⟨values, hvalues, rfl⟩ := Option.map_eq_some_iff.mp hspans
  constructor
  · exact Span.ofAscending_ne_nil scale.boundary (valuesAt_ne_nil h hvalues)
  · exact Span.isCoalesced_ofAscending scale.boundary (pairwise_valuesAt hvalues)

theorem isConjunction_of_period? (h : (ofPeriods left right).period? = some p) :
    IsConjunction left right p where
  accepts_iff := accepts_of_period? h
  constrains_iff scale := by
    rw [Period.constrains_iff, Period.constrains_iff, Period.constrains_iff,
      ← exists_valuesAt_iff, spans?_of_period? h scale]
    simp only [Option.map_eq_some_iff]
    constructor
    · intro hspans
      obtain ⟨-, values, hvalues, -⟩ := hspans
      exact ⟨values, hvalues⟩
    · intro hvalues
      obtain ⟨values, hvalues⟩ := hvalues
      exact ⟨_, values, hvalues, rfl⟩
  coalesced _ _ hspans := coalesced_of_period? h hspans

/-- The meetings of two lists are those of their pairs, left by left. -/
theorem all_eq_map (lefts rights : List Period) :
    all lefts rights = (lefts ×ˢ rights).map fun pair => ofPeriods pair.1 pair.2 := by
  induction lefts with
  | nil => rfl
  | cons l rest ih =>
      rw [List.product_cons, List.map_append, List.map_map, ← ih]
      rfl

end Meeting

namespace Period

/-- Intersecting goes through the pairs of both lists, left by left. -/
theorem intersect_eq_filterMap (lefts rights : List Period) :
    intersect lefts rights =
      (lefts ×ˢ rights).filterMap fun pair => (Meeting.ofPeriods pair.1 pair.2).period? := by
  rw [intersect, Meeting.all_eq_map, List.filterMap_map]
  rfl

/-- Periods that fit the fields do not meet unless their meeting has a period. -/
theorem not_meets_of_period?_eq_none {left right : Period} (hleft : left.FitsFields)
    (hright : right.FitsFields) (h : (Meeting.ofPeriods left right).period? = none) :
    ¬left.Meets right := by
  intro hmeets
  obtain ⟨p, hp⟩ := (Meeting.exists_period?_iff hleft hright).mpr hmeets
  rw [h] at hp
  cases hp

/-- Pairs of periods that fit the fields are gone through one by one: one that meets is
listed, and one that does not is left out. -/
theorem listsConjunctions_filterMap {pairs : List (Period × Period)}
    (h : ∀ pair ∈ pairs, pair.1.FitsFields ∧ pair.2.FitsFields) :
    ListsConjunctions pairs
      (pairs.filterMap fun pair => (Meeting.ofPeriods pair.1 pair.2).period?) := by
  induction pairs with
  | nil => exact .nil
  | cons pair rest ih =>
      obtain ⟨left, right⟩ := pair
      obtain ⟨⟨hleft, hright⟩, hrest⟩ := List.forall_mem_cons.mp h
      cases hperiod : (Meeting.ofPeriods left right).period? with
      | none =>
          simp only [List.filterMap_cons, hperiod]
          exact .apart (not_meets_of_period?_eq_none hleft hright hperiod) (ih hrest)
      | some p =>
          have hmeets := (Meeting.exists_period?_iff hleft hright).mp ⟨p, hperiod⟩
          simp only [List.filterMap_cons, hperiod]
          exact .meeting hmeets (Meeting.isConjunction_of_period? hperiod) (ih hrest)

variable {lefts rights : List Period}

theorem expandable_of_fitsFields {p : Period} (h : p.FitsFields) : Machine.Expandable p :=
  fun _ hc _ hspan => h.limit_le hc hspan

/-- Intersecting periods that fit the fields never faults. The result accepts what some period
of each list accepts, and lists the conjunctions of the pairs that meet, left by left. -/
theorem intersect_lists_conjunctions (hlefts : ∀ p ∈ lefts, p.FitsFields)
    (hrights : ∀ p ∈ rights, p.FitsFields) :
    Machine.intersect lefts rights = .ok (intersect lefts rights) ∧
    (∀ x, (∃ p ∈ intersect lefts rights, p.accepts x = true) ↔
      (∃ l ∈ lefts, l.accepts x = true) ∧ ∃ r ∈ rights, r.accepts x = true) ∧
    ListsConjunctions (lefts ×ˢ rights) (intersect lefts rights) := by
  refine ⟨?_, ?_, ?_⟩
  · apply Machine.intersect_eq
    · exact fun p hp => expandable_of_fitsFields (hlefts p hp)
    · exact fun p hp => expandable_of_fitsFields (hrights p hp)
  · intro x
    rw [← Schedule.anyAccepts_iff, Schedule.anyAccepts_intersect, Bool.and_eq_true,
      Schedule.anyAccepts_iff, Schedule.anyAccepts_iff]
  · rw [intersect_eq_filterMap]
    apply listsConjunctions_filterMap
    intro pair hpair
    obtain ⟨hl, hr⟩ := List.mem_product.mp hpair
    exact ⟨hlefts _ hl, hrights _ hr⟩

/-- Spans in no order that overlap, one of them without values and some closed as those of
other scales are, a period that accepts nothing and one without constraints. -/
theorem intersect_overlapping_lists_conjunctions :
    let mornings : Period := .ofConstraints
      [(.hour, [⟨20, 8, .inclusive⟩, ⟨9, 11, .inclusive⟩, ⟨6, 10, .exclusive⟩])]
    let nothing : Period := .ofConstraints [(.weekDay, [])]
    let summers : Period := .ofConstraints [(.hour, [⟨11, 14, .exclusive⟩, ⟨8, 8, .inclusive⟩]),
      (.month, [⟨7, 7, .inclusive⟩, ⟨6, 8, .exclusive⟩])]
    let shared : Period := .ofConstraints [(.month, [⟨6, 7, .inclusive⟩]),
      (.hour, [⟨8, 9, .exclusive⟩, ⟨11, 12, .exclusive⟩])]
    let gathered : Period := .ofConstraints [(.hour, [⟨6, 12, .exclusive⟩])]
    ((∀ p ∈ [mornings, nothing], p.FitsFields) ∧ ∀ p ∈ [summers, unconstrained], p.FitsFields) ∧
    Machine.intersect [mornings, nothing] [summers, unconstrained] = .ok [shared, gathered] ∧
    (∀ x, (∃ p ∈ [shared, gathered], p.accepts x = true) ↔
      (∃ l ∈ [mornings, nothing], l.accepts x = true) ∧
        ∃ r ∈ [summers, unconstrained], r.accepts x = true) ∧
    ListsConjunctions
      [(mornings, summers), (mornings, unconstrained), (nothing, summers),
        (nothing, unconstrained)]
      [shared, gathered] := by
  intro mornings nothing summers shared gathered
  have hlefts : ∀ p ∈ [mornings, nothing], p.FitsFields := by decide
  have hrights : ∀ p ∈ [summers, unconstrained], p.FitsFields := by decide
  have hresult : intersect [mornings, nothing] [summers, unconstrained] = [shared, gathered] := by
    decide
  have hproduct := intersect_lists_conjunctions hlefts hrights
  rw [hresult] at hproduct
  exact ⟨⟨hlefts, hrights⟩, hproduct⟩

end Period

end Timetable
