import Timetable.Proofs.Period.Meeting

/-!
# Common assignments of periods that meet

Where a meeting leaves values to every scale that it lists, the least of them
make up an assignment that both periods accept. Spans whose ends have sixteen
bits, and room for one more value, leave only values of sixteen bits. So two
such periods meet exactly when they accept an assignment of sixteen bits in
common, whichever scales they constrain.
-/

namespace Timetable

/-- The values of all fields have sixteen bits. -/
def Assignment.FitsFields (x : Assignment) : Prop := ∀ scale, x scale ≤ 65535

/-- The ends of all spans lie below the greatest number of sixteen bits. -/
def Period.FitsFields (p : Period) : Prop :=
  ∀ c ∈ p.constraints, ∀ span ∈ c.2, span.start ≤ 65534 ∧ span.stop ≤ 65534

instance (p : Period) : Decidable p.FitsFields :=
  inferInstanceAs (Decidable (∀ c ∈ p.constraints, ∀ span ∈ c.2, _))

variable {left right p : Period}

theorem Span.limit_le_succ_stop (span : Span) : span.limit ≤ span.stop + 1 := by
  unfold limit
  split
  · exact Nat.le_refl _
  · exact Nat.le_succ _

/-- The first value past a span that fits the fields fits them as well. -/
theorem Period.FitsFields.limit_le (h : p.FitsFields) {c : Scale × List Span}
    (hc : c ∈ p.constraints) {span : Span} (hspan : span ∈ c.2) : span.limit ≤ 65535 := by
  have hstop := (h c hc span hspan).2
  have hlimit := span.limit_le_succ_stop
  omega

/-- Spans that fit the fields cover values that do. -/
theorem Period.FitsFields.le_of_anyCovers (h : p.FitsFields) {scale : Scale} {spans : List Span}
    (hspans : p.spans? scale = some spans) {value : Nat}
    (hvalue : Span.anyCovers spans value = true) : value ≤ 65535 := by
  obtain ⟨span, hspan, hcovers⟩ := List.any_eq_true.mp hvalue
  have hlimit := h.limit_le ((p.mem_constraints scale spans).mpr hspans) hspan
  have hvalue := ((Span.covers_iff span value).mp hcovers).2
  omega

namespace Meeting

/-- The least value that is left to each scale, and 0 for scales without constraints. -/
def leastValues (left right : Period) : Assignment := fun scale =>
  match valuesAt? left right scale with
  | some (value :: _) => value
  | _ => 0

theorem leastValues_mem {scale : Scale} {values : List Nat}
    (h : valuesAt? left right scale = some values) (hne : values ≠ []) :
    leastValues left right scale ∈ values := by
  obtain ⟨value, rest, rfl⟩ := List.exists_cons_of_ne_nil hne
  simp [leastValues, h]

/-- The values that periods of the fields' size leave to a scale fit the fields. -/
theorem le_of_mem_valuesAt (hleft : left.FitsFields) (hright : right.FitsFields) {scale : Scale}
    {values : List Nat} (h : valuesAt? left right scale = some values) {value : Nat}
    (hvalue : value ∈ values) : value ≤ 65535 := by
  rcases exists_covers_of_mem_valuesAt h hvalue with ⟨spans, hs, hcovers⟩ | ⟨spans, hs, hcovers⟩
  · exact hleft.le_of_anyCovers hs hcovers
  · exact hright.le_of_anyCovers hs hcovers

theorem fitsFields_leastValues (hleft : left.FitsFields) (hright : right.FitsFields) :
    Assignment.FitsFields (leastValues left right) := by
  intro scale
  unfold leastValues
  split
  · next hvalues => exact le_of_mem_valuesAt hleft hright hvalues List.mem_cons_self
  · exact Nat.zero_le _

/-- Both periods accept the least values of their meeting, if no scale lacks values. -/
theorem accepts_leastValues (h : (ofPeriods left right).period? = some p) :
    left.accepts (leastValues left right) = true ∧
      right.accepts (leastValues left right) = true := by
  apply (accepts_and_accepts_iff left right _).mpr
  intro scale values hvalues
  exact leastValues_mem hvalues (valuesAt_ne_nil h hvalues)

/-- Two periods meet exactly when some assignment of the fields' size is accepted by both. -/
theorem exists_period?_iff (hleft : left.FitsFields) (hright : right.FitsFields) :
    (∃ p, (ofPeriods left right).period? = some p) ↔
      ∃ x, Assignment.FitsFields x ∧ left.accepts x = true ∧ right.accepts x = true := by
  constructor
  · rintro ⟨p, hp⟩
    exact ⟨_, fitsFields_leastValues hleft hright, accepts_leastValues hp⟩
  · rintro ⟨x, -, hl, hr⟩
    exact exists_period?_of_accepts hl hr

end Meeting

/-- Lists of periods have an empty intersection exactly when no assignment of the fields'
size is accepted on both sides. -/
theorem Period.intersect_eq_nil_iff {lefts rights : List Period}
    (hlefts : ∀ p ∈ lefts, p.FitsFields) (hrights : ∀ p ∈ rights, p.FitsFields) :
    intersect lefts rights = [] ↔
      ¬∃ x, Assignment.FitsFields x ∧ (∃ p ∈ lefts, p.accepts x = true) ∧
        ∃ p ∈ rights, p.accepts x = true := by
  rw [List.eq_nil_iff_forall_not_mem, ← not_exists, not_iff_not]
  simp only [mem_intersect]
  constructor
  · rintro ⟨p, l, hl, r, hr, hp⟩
    obtain ⟨x, hx, hlx, hrx⟩ :=
      (Meeting.exists_period?_iff (hlefts l hl) (hrights r hr)).mp ⟨p, hp⟩
    exact ⟨x, hx, ⟨l, hl, hlx⟩, r, hr, hrx⟩
  · rintro ⟨x, hx, ⟨l, hl, hlx⟩, r, hr, hrx⟩
    obtain ⟨p, hp⟩ :=
      (Meeting.exists_period?_iff (hlefts l hl) (hrights r hr)).mpr ⟨x, hx, hlx, hrx⟩
    exact ⟨p, l, hl, r, hr, hp⟩

end Timetable
