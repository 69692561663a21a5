import Mathlib.Data.List.Sort
import Timetable.Span.Values

/-!
# Gathered spans

The spans gathered from ascending values share their boundary, none of them is
empty, and each starts above the one before it. They expand into the values they
were gathered from, so gathering their values again changes nothing. Stored
periods only have such spans, of values within the domain of the scale.
-/

namespace Timetable

/-- The values that a stored period may allow a scale: those of its domain, for years
without the last one. -/
def Scale.Stores (scale : Scale) (value : Nat) : Prop :=
  scale.lowest ≤ value ∧ value ≤ scale.highest ∧ (scale = .year → value ≠ scale.highest)

namespace Span

theorem anyCovers_iff (spans : List Span) (value : Nat) :
    anyCovers spans value = true ↔ ∃ span ∈ spans, span.covers value = true := List.any_eq_true

/-- The spans are gathered from values that the scale stores. -/
inductive IsGathered (scale : Scale) : List Span → Prop
  | intro {values} (hasc : values.Pairwise (· < ·)) (hstores : ∀ v ∈ values, scale.Stores v) :
      IsGathered scale (ofAscending scale.boundary values)

theorem isGathered_nil (scale : Scale) : IsGathered scale [] :=
  IsGathered.intro List.Pairwise.nil fun _ hv => absurd hv List.not_mem_nil

/-- The spans have the boundary, none of them is empty, and they ascend with a missing value
between each and the next. -/
structure IsCoalesced (boundary : Boundary) (spans : List Span) : Prop where
  boundary_eq : ∀ span ∈ spans, span.boundary = boundary
  start_lt_limit : ∀ span ∈ spans, span.start < span.limit
  apart : spans.Pairwise fun a b => a.limit < b.start

/-- The canonical form of spans: with the boundary of the scale, none of them empty, each
with a missing value between itself and the next, and only of values that the scale stores. -/
structure IsCanonical (scale : Scale) (spans : List Span) : Prop where
  boundary_eq : ∀ span ∈ spans, span.boundary = scale.boundary
  start_lt_limit : ∀ span ∈ spans, span.start < span.limit
  apart : spans.Pairwise fun a b => a.limit < b.start
  stores : ∀ value, anyCovers spans value = true → scale.Stores value

variable {boundary : Boundary} {scale : Scale}

/-- What adding a value below all spans makes of them, if a property of spans survives
moving their start down and holds of single values. -/
theorem forall_mem_addBelow {P : Span → Prop} {value : Nat} {spans : List Span}
    (hspans : ∀ span ∈ spans, P span)
    (hmove : ∀ span ∈ spans, value + 1 = span.start → P { span with start := value })
    (hsingle : P (single value boundary)) : ∀ span ∈ addBelow boundary value spans, P span := by
  cases spans with
  | nil => simpa [addBelow] using hsingle
  | cons first rest =>
      obtain ⟨hfirst, hrest⟩ := List.forall_mem_cons.mp hspans
      rw [addBelow]
      split
      · next htouch =>
          exact List.forall_mem_cons.mpr ⟨hmove first List.mem_cons_self htouch, hrest⟩
      · exact List.forall_mem_cons.mpr ⟨hsingle, hspans⟩

/-- Gathered spans have the boundary that they are gathered with, start at a value and are
not empty. -/
theorem wellFormed_ofAscending (boundary : Boundary) (values : List Nat) :
    ∀ span ∈ ofAscending boundary values,
      span.boundary = boundary ∧ span.start ∈ values ∧ span.start < span.limit := by
  induction values with
  | nil => exact fun _ hspan => absurd hspan List.not_mem_nil
  | cons value rest ih =>
      apply forall_mem_addBelow
      · intro span hspan
        obtain ⟨hboundary, hstart, hpos⟩ := ih span hspan
        exact ⟨hboundary, List.mem_cons_of_mem value hstart, hpos⟩
      · intro span hspan htouch
        obtain ⟨hboundary, -, hpos⟩ := ih span hspan
        have hlimit : ({ span with start := value } : Span).limit = span.limit := rfl
        refine ⟨hboundary, List.mem_cons_self, ?_⟩
        rw [hlimit]
        change value < span.limit
        omega
      · refine ⟨boundary_single value boundary, ?_, ?_⟩
        · rw [start_single]
          exact List.mem_cons_self
        · rw [start_single, limit_single]
          exact Nat.lt_succ_self value

theorem ofAscending_ne_nil (boundary : Boundary) {values : List Nat} (h : values ≠ []) :
    ofAscending boundary values ≠ [] := by
  obtain ⟨value, rest, rfl⟩ := List.exists_cons_of_ne_nil h
  have hcovers := (anyCovers_ofAscending boundary (value :: rest) value).mpr List.mem_cons_self
  intro hnil
  rw [hnil] at hcovers
  cases hcovers

/-- Gathered spans ascend, and the first value past each of them lies below the next one. -/
theorem pairwise_apart_ofAscending (boundary : Boundary) {values : List Nat}
    (h : values.Pairwise (· < ·)) :
    (ofAscending boundary values).Pairwise fun a b => a.limit < b.start := by
  induction values with
  | nil => exact List.Pairwise.nil
  | cons value rest ih =>
      obtain ⟨hvalue, hrest⟩ := List.pairwise_cons.mp h
      have hwell := wellFormed_ofAscending boundary rest
      have hapart := ih hrest
      change (addBelow boundary value (ofAscending boundary rest)).Pairwise _
      cases hspans : ofAscending boundary rest with
      | nil => exact List.pairwise_singleton _ _
      | cons first others =>
          rw [hspans] at hwell hapart
          obtain ⟨hfirst, hothers⟩ := List.pairwise_cons.mp hapart
          obtain ⟨-, hstart, hpos⟩ := hwell first List.mem_cons_self
          have hbelow := hvalue first.start hstart
          rw [addBelow]
          split
          · exact List.pairwise_cons.mpr ⟨hfirst, hothers⟩
          · next hgap =>
              apply List.pairwise_cons.mpr
              refine ⟨fun span hspan => ?_, hapart⟩
              rw [limit_single]
              rcases List.mem_cons.mp hspan with rfl | hspan
              · omega
              · have hlater := hfirst span hspan
                omega

/-- Gathered spans are coalesced. -/
theorem isCoalesced_ofAscending (boundary : Boundary) {values : List Nat}
    (h : values.Pairwise (· < ·)) : IsCoalesced boundary (ofAscending boundary values) where
  boundary_eq span hspan := (wellFormed_ofAscending boundary values span hspan).1
  start_lt_limit span hspan := (wellFormed_ofAscending boundary values span hspan).2.2
  apart := pairwise_apart_ofAscending boundary h

/-- Coalesced spans start one above the other. -/
theorem IsCoalesced.pairwise_start {spans : List Span} (h : IsCoalesced boundary spans) :
    spans.Pairwise fun a b => a.start < b.start := by
  apply h.apart.imp_of_mem
  intro a b ha _ hab
  exact Nat.lt_trans (h.start_lt_limit a ha) hab

theorem IsCoalesced.nodup_starts {spans : List Span} (h : IsCoalesced boundary spans) :
    (spans.map start).Nodup := (List.pairwise_map.mpr h.pairwise_start).nodup

/-- Only the values that are covered count. -/
theorem distinctValues_eq {spans : List Span} {values : List Nat}
    (hasc : values.Pairwise (· < ·)) (h : ∀ v, anyCovers spans v = true ↔ v ∈ values) :
    distinctValues spans = values := by
  apply List.Pairwise.eq_of_mem_iff (pairwise_distinctValues spans) hasc
  intro v
  rw [mem_distinctValues, h]

/-- The distinct entries of a list in order ascend. -/
theorem pairwise_ascending (values : List Nat) :
    (ascending compare values).Pairwise (· < ·) :=
  (isAscending_ascending values).imp fun hab => Nat.compare_eq_lt.mp hab

theorem distinctValues_ofAscending {values : List Nat} (h : values.Pairwise (· < ·)) :
    distinctValues (ofAscending boundary values) = values :=
  distinctValues_eq h (anyCovers_ofAscending boundary values)

namespace IsGathered

variable {spans : List Span} {span : Span}

/-- Values that are covered by gathered spans are stored by the scale. -/
theorem stores (h : IsGathered scale spans) {v : Nat} (hv : anyCovers spans v = true) :
    scale.Stores v := by
  obtain ⟨hasc, hstores⟩ := h
  exact hstores v ((anyCovers_ofAscending _ _ v).mp hv)

/-- Any other spans of the same values gather into these. -/
theorem ofAscending_eq (h : IsGathered scale spans) {others : List Span}
    (hothers : ∀ v, anyCovers others v = anyCovers spans v) :
    ofAscending scale.boundary (distinctValues others) = spans := by
  obtain @⟨values, hasc, -⟩ := h
  rw [distinctValues_eq hasc]
  intro v
  rw [hothers, anyCovers_ofAscending]

theorem isCoalesced (h : IsGathered scale spans) : IsCoalesced scale.boundary spans := by
  obtain ⟨hasc, -⟩ := h
  exact isCoalesced_ofAscending scale.boundary hasc

theorem boundary_eq (h : IsGathered scale spans) (hspan : span ∈ spans) :
    span.boundary = scale.boundary := h.isCoalesced.boundary_eq span hspan

theorem start_lt_limit (h : IsGathered scale spans) (hspan : span ∈ spans) :
    span.start < span.limit := h.isCoalesced.start_lt_limit span hspan

theorem lowest_le_start (h : IsGathered scale spans) (hspan : span ∈ spans) :
    scale.lowest ≤ span.start := by
  have hpos := h.start_lt_limit hspan
  have hstart : span.covers span.start = true := (covers_iff span _).mpr ⟨Nat.le_refl _, hpos⟩
  exact (h.stores ((anyCovers_iff spans _).mpr ⟨span, hspan, hstart⟩)).1

theorem limit_le (h : IsGathered scale spans) (hspan : span ∈ spans) :
    span.limit ≤ scale.highest + 1 := by
  have hpos := h.start_lt_limit hspan
  have hlast : span.covers (span.limit - 1) = true := by
    rw [covers_iff]
    omega
  have hhighest := (h.stores ((anyCovers_iff spans _).mpr ⟨span, hspan, hlast⟩)).2.1
  omega

theorem isCanonical (h : IsGathered scale spans) : IsCanonical scale spans where
  boundary_eq _ hspan := h.boundary_eq hspan
  start_lt_limit _ hspan := h.start_lt_limit hspan
  apart := h.isCoalesced.apart
  stores _ hvalue := h.stores hvalue

/-- Spans that start at the same value are the same. -/
theorem eq_of_start_eq (h : IsGathered scale spans) {other : Span} (hspan : span ∈ spans)
    (hother : other ∈ spans) (hstart : span.start = other.start) : span = other :=
  List.inj_on_of_nodup_map h.isCoalesced.nodup_starts hspan hother hstart

end IsGathered

end Span

end Timetable
