import Timetable.Period.Meeting
import Timetable.Proofs.Period.Constraints
import Timetable.Schedule.Basic

/-!
# What meetings of periods accept

The period of a meeting constrains each scale to the values that the meeting
left to it, and there is such a period exactly when every scale has a value
left. Hence it accepts what both periods accept, and a pair without a period
accepts nothing in common.
-/

namespace Timetable

variable {left right p : Period} {x : Assignment}

namespace Meeting

theorem nodup_scaleOrder (left : Period) : (scaleOrder left).Nodup := by
  refine List.nodup_append.mpr
    ⟨Scale.nodup_all.filter _, Scale.nodup_all.filter _, fun a ha b hb hab => ?_⟩
  subst hab
  have hin := (List.mem_filter.mp ha).2
  have hout := (List.mem_filter.mp hb).2
  simp [hin] at hout

/-- A meeting lists no scale twice. -/
theorem nodup_scales (left right : Period) : ((ofPeriods left right).map Prod.fst).Nodup :=
  Scale.nodup_map_fst (nodup_scaleOrder left) (valuesAt? left right)

/-- A meeting leaves values to the scales that either period constrains. -/
theorem exists_valuesAt_iff (left right : Period) (scale : Scale) :
    (∃ values, valuesAt? left right scale = some values) ↔
      (∃ spans, left.spans? scale = some spans) ∨ ∃ spans, right.spans? scale = some spans := by
  unfold valuesAt?
  cases left.spans? scale <;> cases right.spans? scale <;> simp

/-- A value that is left to a scale is one that some period allows it explicitly. -/
theorem exists_covers_of_mem_valuesAt {scale : Scale} {values : List Nat}
    (h : valuesAt? left right scale = some values) {value : Nat} (hvalue : value ∈ values) :
    (∃ spans, left.spans? scale = some spans ∧ Span.anyCovers spans value = true) ∨
      ∃ spans, right.spans? scale = some spans ∧ Span.anyCovers spans value = true := by
  obtain ⟨hl, hr⟩ := (mem_valuesAt h value).mp hvalue
  rcases (exists_valuesAt_iff left right scale).mp ⟨values, h⟩ with ⟨spans, hs⟩ | ⟨spans, hs⟩
  · exact Or.inl ⟨spans, hs, hl spans hs⟩
  · exact Or.inr ⟨spans, hs, hr spans hs⟩

/-- The values that a meeting leaves to a scale ascend. -/
theorem pairwise_valuesAt {scale : Scale} {values : List Nat}
    (h : valuesAt? left right scale = some values) : values.Pairwise (· < ·) := by
  unfold valuesAt? at h
  split at h
  · obtain rfl := Option.some.inj h
    exact (Span.pairwise_distinctValues _).filter _
  · obtain rfl := Option.some.inj h
    exact Span.pairwise_distinctValues _
  · obtain rfl := Option.some.inj h
    exact Span.pairwise_distinctValues _
  · cases h

theorem isSatisfiable_ofPeriods_iff (left right : Period) :
    (ofPeriods left right).isSatisfiable = true ↔
      ∀ scale values, valuesAt? left right scale = some values → values ≠ [] := by
  simp only [isSatisfiable, List.all_eq_true, Prod.forall, mem_ofPeriods]
  refine forall_congr' fun scale => forall_congr' fun values => imp_congr_right fun _ => ?_
  simp

/-- Two periods without a common value on some scale have no meeting. -/
theorem period?_eq_none_iff (left right : Period) :
    (ofPeriods left right).period? = none ↔ ∃ scale, valuesAt? left right scale = some [] := by
  rw [period?, ite_eq_right_iff]
  have hsat := isSatisfiable_ofPeriods_iff left right
  constructor
  · intro h
    by_contra hnone
    refine absurd (h (hsat.mpr fun scale values hv hnil => hnone ⟨scale, ?_⟩)) (by simp)
    rw [hv, hnil]
  · rintro ⟨scale, hv⟩ h
    exact absurd rfl (hsat.mp h scale [] hv)

/-- A meeting that has a period leaves values to every scale that it lists. -/
theorem valuesAt_ne_nil (h : (ofPeriods left right).period? = some p) {scale : Scale}
    {values : List Nat} (hvalues : valuesAt? left right scale = some values) : values ≠ [] := by
  rintro rfl
  have hnone := (period?_eq_none_iff left right).mpr ⟨scale, hvalues⟩
  rw [h] at hnone
  cases hnone

/-- The period of a meeting constrains a scale by the fewest spans of its values. -/
theorem spans?_of_period? (h : (ofPeriods left right).period? = some p) (scale : Scale) :
    p.spans? scale =
      (valuesAt? left right scale).map (Span.ofAscending scale.boundary) := by
  simp only [period?, Option.ite_none_right_eq_some, Option.some.injEq] at h
  obtain ⟨_, rfl⟩ := h
  have hnodup := nodup_scales left right
  ext spans
  rw [Period.spans?_ofConstraints_eq_some_iff (by simpa [Function.comp_def] using hnodup)]
  simp only [List.mem_map, Prod.exists, Prod.mk.injEq, Option.map_eq_some_iff, mem_ofPeriods]
  constructor
  · rintro ⟨_, values, hv, rfl, rfl⟩
    exact ⟨values, hv, rfl⟩
  · rintro ⟨values, hv, rfl⟩
    exact ⟨scale, values, hv, rfl, rfl⟩

/-- The period of a meeting constrains some scale as soon as the left period does. -/
theorem isUnconstrained_of_period? (h : (ofPeriods left right).period? = some p)
    (hleft : left.isUnconstrained = false) : p.isUnconstrained = false := by
  obtain ⟨scale, spans, hspans⟩ := (Period.isUnconstrained_eq_false_iff left).mp hleft
  obtain ⟨values, hvalues⟩ := (exists_valuesAt_iff left right scale).mpr (Or.inl ⟨spans, hspans⟩)
  refine (Period.isUnconstrained_eq_false_iff p).mpr
    ⟨scale, Span.ofAscending scale.boundary values, ?_⟩
  rw [spans?_of_period? h scale, hvalues]
  rfl

/-- Both periods accept an assignment when it takes the values left by their meeting. -/
theorem accepts_and_accepts_iff (left right : Period) (x : Assignment) :
    (left.accepts x = true ∧ right.accepts x = true) ↔
      ∀ scale values, valuesAt? left right scale = some values → x scale ∈ values := by
  simp only [Period.accepts_iff]
  constructor
  · rintro ⟨hl, hr⟩ scale values hv
    exact (mem_valuesAt hv (x scale)).mpr ⟨hl scale, hr scale⟩
  · intro h
    constructor
    · intro scale spans hs
      obtain ⟨values, hv⟩ := (exists_valuesAt_iff left right scale).mpr (Or.inl ⟨spans, hs⟩)
      exact ((mem_valuesAt hv (x scale)).mp (h scale values hv)).1 spans hs
    · intro scale spans hs
      obtain ⟨values, hv⟩ := (exists_valuesAt_iff left right scale).mpr (Or.inr ⟨spans, hs⟩)
      exact ((mem_valuesAt hv (x scale)).mp (h scale values hv)).2 spans hs

/-- The period of a meeting accepts exactly what both of its periods accept. -/
theorem accepts_of_period? (h : (ofPeriods left right).period? = some p) (x : Assignment) :
    p.accepts x = true ↔ left.accepts x = true ∧ right.accepts x = true := by
  rw [accepts_and_accepts_iff, Period.accepts_iff]
  apply forall_congr'
  intro scale
  rw [spans?_of_period? h scale]
  cases valuesAt? left right scale with
  | none => simp
  | some values => simp [Span.anyCovers_ofAscending]

/-- A common assignment keeps every scale of a meeting from running out of values. -/
theorem exists_period?_of_accepts (hl : left.accepts x = true) (hr : right.accepts x = true) :
    ∃ p, (ofPeriods left right).period? = some p := by
  apply Option.ne_none_iff_exists'.mp
  intro hnone
  obtain ⟨scale, hv⟩ := (period?_eq_none_iff left right).mp hnone
  have hmem := (accepts_and_accepts_iff left right x).mp ⟨hl, hr⟩ scale [] hv
  exact List.not_mem_nil hmem

end Meeting

namespace Period

/-- A period of an intersection comes from the meeting of a left period and a right one. -/
theorem mem_intersect {lefts rights : List Period} :
    p ∈ intersect lefts rights ↔
      ∃ l ∈ lefts, ∃ r ∈ rights, (Meeting.ofPeriods l r).period? = some p := by
  simp only [intersect, Meeting.all, List.mem_filterMap, List.mem_flatMap, List.mem_map]
  constructor
  · rintro ⟨_, ⟨l, hl, r, hr, rfl⟩, hp⟩
    exact ⟨l, hl, r, hr, hp⟩
  · rintro ⟨l, hl, r, hr, hp⟩
    exact ⟨_, ⟨l, hl, r, hr, rfl⟩, hp⟩

end Period

namespace Schedule

theorem anyAccepts_iff (periods : List Period) (x : Assignment) :
    anyAccepts periods x = true ↔ ∃ p ∈ periods, p.accepts x = true := by
  simp [anyAccepts]

@[simp] theorem anyAccepts_nil (x : Assignment) : anyAccepts [] x = false := rfl

@[simp] theorem anyAccepts_append (lefts rights : List Period) (x : Assignment) :
    anyAccepts (lefts ++ rights) x = (anyAccepts lefts x || anyAccepts rights x) :=
  List.any_append

/-- An intersection of period lists accepts exactly what both lists accept. -/
theorem anyAccepts_intersect (lefts rights : List Period) (x : Assignment) :
    anyAccepts (Period.intersect lefts rights) x =
      (anyAccepts lefts x && anyAccepts rights x) := by
  rw [Bool.eq_iff_iff, Bool.and_eq_true]
  simp only [anyAccepts_iff, Period.mem_intersect]
  constructor
  · rintro ⟨p, ⟨l, hl, r, hr, hp⟩, hx⟩
    obtain ⟨hlx, hrx⟩ := (Meeting.accepts_of_period? hp x).mp hx
    exact ⟨⟨l, hl, hlx⟩, r, hr, hrx⟩
  · rintro ⟨⟨l, hl, hlx⟩, r, hr, hrx⟩
    obtain ⟨p, hp⟩ := Meeting.exists_period?_of_accepts hlx hrx
    exact ⟨p, ⟨l, hl, r, hr, hp⟩, (Meeting.accepts_of_period? hp x).mpr ⟨hlx, hrx⟩⟩

end Schedule

end Timetable
