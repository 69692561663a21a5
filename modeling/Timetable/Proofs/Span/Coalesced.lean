import Mathlib.Data.List.Perm.Subperm
import Timetable.Proofs.Machine.Values

/-!
# Coalesced spans

The values next to a coalesced span, the one below its start and the first one past
it, are missing. So whatever spans cover the same values, one of them starts where
a coalesced span does: no list that covers the same values is shorter, and no other
coalesced list does. Gathering the values of a list gives the one coalesced list.
-/

namespace Timetable.Span

variable {boundary : Boundary} {spans others : List Span} {span other : Span}

theorem eq_of_limit_eq (hstart : span.start = other.start) (hlimit : span.limit = other.limit)
    (hboundary : span.boundary = other.boundary) : span = other := by
  obtain ⟨start, stop, boundary⟩ := span
  obtain ⟨start', stop', boundary'⟩ := other
  obtain rfl : start = start' := hstart
  obtain rfl : boundary = boundary' := hboundary
  cases boundary with
  | inclusive =>
      obtain rfl : stop = stop' := Nat.succ.inj hlimit
      rfl
  | exclusive =>
      obtain rfl : stop = stop' := hlimit
      rfl

namespace IsCoalesced

/-- Different spans of a coalesced list lie apart. -/
theorem eq_or_apart (h : IsCoalesced boundary spans) {a b : Span} (ha : a ∈ spans)
    (hb : b ∈ spans) : a = b ∨ a.limit < b.start ∨ b.limit < a.start := by
  let Apart (a b : Span) : Prop := a = b ∨ a.limit < b.start ∨ b.limit < a.start
  have hapart : spans.Pairwise Apart := h.apart.imp fun hab => Or.inr (Or.inl hab)
  have hflip : spans.Pairwise (flip Apart) := h.apart.imp fun hab => Or.inr (Or.inr hab)
  have hself : ∀ span ∈ spans, Apart span span := fun _ _ => Or.inl rfl
  exact hapart.forall_of_forall_of_flip hself hflip ha hb

/-- The first value past a coalesced span is missing. -/
theorem not_covers_limit (h : IsCoalesced boundary spans) (hspan : span ∈ spans) :
    anyCovers spans span.limit = false := by
  rw [← Bool.not_eq_true, anyCovers_iff]
  intro hcovered
  obtain ⟨next, hnext, hcovers⟩ := hcovered
  obtain ⟨hlow, hhigh⟩ := (covers_iff next _).mp hcovers
  have hpos := h.start_lt_limit span hspan
  rcases h.eq_or_apart hspan hnext with rfl | hapart | hapart <;> omega

/-- The value below the start of a coalesced span is missing. -/
theorem not_covers_below (h : IsCoalesced boundary spans) (hspan : span ∈ spans) {value : Nat}
    (hvalue : value + 1 = span.start) : anyCovers spans value = false := by
  rw [← Bool.not_eq_true, anyCovers_iff]
  intro hcovered
  obtain ⟨before, hbefore, hcovers⟩ := hcovered
  obtain ⟨hlow, hhigh⟩ := (covers_iff before _).mp hcovers
  have hpos := h.start_lt_limit span hspan
  rcases h.eq_or_apart hspan hbefore with rfl | hapart | hapart <;> omega

/-- Among spans that cover the same values one starts where a coalesced span does, and it is
not empty. -/
theorem exists_start_eq (h : IsCoalesced boundary spans)
    (hsame : ∀ v, anyCovers others v = anyCovers spans v) (hspan : span ∈ spans) :
    ∃ other ∈ others, other.start = span.start ∧ other.start < other.limit := by
  have hfirst : anyCovers spans span.start = true :=
    (anyCovers_iff spans _).mpr ⟨span, hspan,
      (covers_iff span _).mpr ⟨Nat.le_refl _, h.start_lt_limit span hspan⟩⟩
  rw [← hsame] at hfirst
  obtain ⟨other, hother, hcovers⟩ := (anyCovers_iff others _).mp hfirst
  obtain ⟨hlow, hhigh⟩ := (covers_iff other _).mp hcovers
  refine ⟨other, hother, ?_, Nat.lt_of_le_of_lt hlow hhigh⟩
  -- A span that started lower would cover the missing value below.
  by_contra hne
  have hbelow : span.start - 1 + 1 = span.start := by omega
  have hmissing := h.not_covers_below hspan hbelow
  have hcovered : anyCovers others (span.start - 1) = true :=
    (anyCovers_iff others _).mpr ⟨other, hother, (covers_iff other _).mpr (by omega)⟩
  rw [hsame, hmissing] at hcovered
  cases hcovered

/-- No list of spans that covers the same values is shorter than a coalesced one. -/
theorem length_le (h : IsCoalesced boundary spans)
    (hsame : ∀ v, anyCovers others v = anyCovers spans v) : spans.length ≤ others.length := by
  have hstarts : spans.map start ⊆ others.map start := by
    intro v hv
    obtain ⟨span, hspan, rfl⟩ := List.mem_map.mp hv
    obtain ⟨other, hother, hstart, -⟩ := h.exists_start_eq hsame hspan
    exact List.mem_map.mpr ⟨other, hother, hstart⟩
  calc
    spans.length = (spans.map start).length := (List.length_map _).symm
    _ ≤ (others.map start).length := (h.nodup_starts.subperm hstarts).length_le
    _ = others.length := List.length_map _

/-- Of two coalesced spans with one start neither goes on past the other. -/
theorem limit_le (h : IsCoalesced boundary spans)
    (hsame : ∀ v, anyCovers others v = anyCovers spans v) (hspan : span ∈ spans)
    (hother : other ∈ others) (hstart : other.start = span.start) : other.limit ≤ span.limit := by
  by_contra hlt
  have hpos := h.start_lt_limit span hspan
  have hcovered : anyCovers others span.limit = true :=
    (anyCovers_iff others _).mpr ⟨other, hother, (covers_iff other _).mpr (by omega)⟩
  rw [hsame, h.not_covers_limit hspan] at hcovered
  cases hcovered

theorem mem_of_mem (h : IsCoalesced boundary spans) (hothers : IsCoalesced boundary others)
    (hsame : ∀ v, anyCovers others v = anyCovers spans v) (hspan : span ∈ spans) :
    span ∈ others := by
  obtain ⟨other, hother, hstart, -⟩ := h.exists_start_eq hsame hspan
  have hlimit : span.limit = other.limit := by
    apply Nat.le_antisymm
    · exact hothers.limit_le (fun v => (hsame v).symm) hother hspan hstart.symm
    · exact h.limit_le hsame hspan hother hstart
  have hboundary : span.boundary = other.boundary :=
    (h.boundary_eq span hspan).trans (hothers.boundary_eq other hother).symm
  rw [eq_of_limit_eq hstart.symm hlimit hboundary]
  exact hother

/-- Coalesced lists with one boundary are the same if they cover the same values. -/
theorem eq_of_same (h : IsCoalesced boundary spans) (hothers : IsCoalesced boundary others)
    (hsame : ∀ v, anyCovers others v = anyCovers spans v) : others = spans := by
  have hirrefl : Std.Irrefl fun a b : Span => a.start < b.start := ⟨fun _ => Nat.lt_irrefl _⟩
  have hantisymm : Std.Antisymm fun a b : Span => a.start < b.start :=
    ⟨fun _ _ hab hba => absurd hba (Nat.lt_asymm hab)⟩
  apply List.Pairwise.eq_of_mem_iff hothers.pairwise_start h.pairwise_start
  intro span
  constructor
  · exact hothers.mem_of_mem h fun v => (hsame v).symm
  · exact h.mem_of_mem hothers hsame

end IsCoalesced

/-! ## Gathered values -/

theorem isCoalesced_ofValues (boundary : Boundary) (values : List Nat) :
    IsCoalesced boundary (ofValues boundary values) :=
  isCoalesced_ofAscending boundary (pairwise_ascending values)

/-- Lists of values are gathered alike just when they have the same values. -/
theorem ofValues_eq_iff (boundary : Boundary) (values others : List Nat) :
    ofValues boundary others = ofValues boundary values ↔ ∀ v, v ∈ others ↔ v ∈ values := by
  constructor
  · intro h v
    rw [← anyCovers_ofValues boundary others, h, anyCovers_ofValues]
  · intro h
    apply (isCoalesced_ofValues boundary values).eq_of_same (isCoalesced_ofValues boundary others)
    intro v
    rw [Bool.eq_iff_iff, anyCovers_ofValues, anyCovers_ofValues, h]

/-- Values with a successor of 16 bits are gathered without a fault, into coalesced spans of
just these values. No spans of the same values are fewer, and no others of them are coalesced.
Lists of values are gathered alike just when they have the same values, like the list that the
gathered spans make up. -/
theorem ofValues_least_unique (scale : Scale) {values : List Nat} (h : ∀ v ∈ values, v ≤ 65534) :
    Machine.coalesce scale values = .ok (ofValues scale.boundary values) ∧
    IsCoalesced scale.boundary (ofValues scale.boundary values) ∧
    (∀ v, anyCovers (ofValues scale.boundary values) v = true ↔ v ∈ values) ∧
    (∀ others : List Span, (∀ v, anyCovers others v = true ↔ v ∈ values) →
      (ofValues scale.boundary values).length ≤ others.length ∧
        (IsCoalesced scale.boundary others → others = ofValues scale.boundary values)) ∧
    (∀ others : List Nat, ofValues scale.boundary others = ofValues scale.boundary values ↔
      ∀ v, v ∈ others ↔ v ∈ values) ∧
    ofValues scale.boundary ((ofValues scale.boundary values).flatMap Span.values) =
      ofValues scale.boundary values := by
  have hcoalesced := isCoalesced_ofValues scale.boundary values
  have hcovers := anyCovers_ofValues scale.boundary values
  refine ⟨?_, hcoalesced, hcovers, ?_, ofValues_eq_iff scale.boundary values, ?_⟩
  · apply Machine.coalesce_eq
    intro v hv
    exact Nat.lt_succ_of_le (h v hv)
  · intro others hothers
    have hsame : ∀ v, anyCovers others v = anyCovers (ofValues scale.boundary values) v := by
      intro v
      rw [Bool.eq_iff_iff, hothers, hcovers]
    exact ⟨hcoalesced.length_le hsame, fun hother => hcoalesced.eq_of_same hother hsame⟩
  · apply (ofValues_eq_iff scale.boundary values _).mpr
    intro v
    rw [← hcovers, anyCovers_iff, List.mem_flatMap]
    simp only [mem_values]

/-- Late and early hours in no order, one of them twice, and the last value with a successor. -/
theorem ofValues_scattered_least_unique :
    let values := [23, 0, 65534, 22, 1, 23]
    let spans : List Span :=
      [⟨0, 2, .exclusive⟩, ⟨22, 24, .exclusive⟩, ⟨65534, 65535, .exclusive⟩]
    (∀ v ∈ values, v ≤ 65534) ∧ Machine.coalesce .hour values = .ok spans ∧
    (∀ others : List Span, (∀ v, anyCovers others v = true ↔ v ∈ values) →
      3 ≤ others.length ∧ (IsCoalesced .exclusive others → others = spans)) ∧
    ofValues .exclusive (spans.flatMap Span.values) = spans := by
  intro values spans
  have hfits : ∀ v ∈ values, v ≤ 65534 := by decide
  have hspans : ofValues Scale.hour.boundary values = spans := by decide
  obtain ⟨hrun, -, -, hleast, -, hagain⟩ := ofValues_least_unique .hour hfits
  rw [hspans] at hrun hleast hagain
  exact ⟨hfits, hrun, hleast, hagain⟩

end Timetable.Span
