import Mathlib.Data.List.Nodup
import Mathlib.Tactic.ByContra
import Timetable.Period.Basic

/-!
# Periods built from constraints

Of several constraints of one scale the last one counts, so a period accepts an
assignment when every constraint that no later one replaces does. Where no scale
is constrained twice, the spans of each scale are just those that are listed.
-/

namespace Timetable

theorem Scale.nodup_all : Scale.all.Nodup := by decide

/-- What is listed scale by scale lists no scale twice. -/
theorem Scale.nodup_map_fst {α : Type} {scales : List Scale} (h : scales.Nodup)
    (spans? : Scale → Option α) :
    ((scales.filterMap fun scale => (spans? scale).map fun a => (scale, a)).map
      Prod.fst).Nodup := by
  have hsub : ((scales.filterMap fun scale => (spans? scale).map fun a => (scale, a)).map
      Prod.fst).Sublist scales := by
    clear h
    induction scales with
    | nil => simp
    | cons scale rest ih =>
        cases hentry : spans? scale with
        | none => simpa [hentry] using ih.cons scale
        | some a => simpa [hentry] using ih.cons_cons scale
  exact h.sublist hsub

namespace Period

variable {constraints : List (Scale × List Span)}

/-- The spans of a scale are those of its last constraint. -/
theorem spans?_ofConstraints_eq_some_iff_last (constraints : List (Scale × List Span))
    (scale : Scale) (spans : List Span) :
    (ofConstraints constraints).spans? scale = some spans ↔
      ∃ before after, constraints = before ++ (scale, spans) :: after ∧
        ∀ later ∈ after, later.1 ≠ scale := by
  rw [spans?_ofConstraints, Option.map_eq_some_iff]
  constructor
  · rintro ⟨c, hfind, rfl⟩
    obtain ⟨hscale, after, before, hsplit, hafter⟩ := List.find?_eq_some_iff_append.mp hfind
    obtain rfl : scale = c.1 := by simpa using hscale
    refine ⟨before.reverse, after.reverse, ?_, fun later hlater => ?_⟩
    · rw [← List.reverse_inj, hsplit]
      simp
    · intro hscale
      have hother := hafter later (List.mem_reverse.mp hlater)
      rw [hscale, beq_self_eq_true] at hother
      exact Bool.noConfusion hother
  · rintro ⟨before, after, rfl, hafter⟩
    refine ⟨(scale, spans), List.find?_eq_some_iff_append.mpr ⟨by simp, after.reverse,
      before.reverse, by simp, fun later hlater => ?_⟩, rfl⟩
    have hother := hafter later (List.mem_reverse.mp hlater)
    simpa using Ne.symm hother

/-- With one constraint for each scale no constraint hides another. -/
theorem spans?_ofConstraints_eq_some_iff (h : (constraints.map Prod.fst).Nodup) (scale : Scale)
    (spans : List Span) :
    (ofConstraints constraints).spans? scale = some spans ↔ (scale, spans) ∈ constraints := by
  rw [spans?_ofConstraints_eq_some_iff_last]
  constructor
  · rintro ⟨before, after, rfl, -⟩
    exact List.mem_append_right before List.mem_cons_self
  · intro hmem
    obtain ⟨before, after, rfl⟩ := List.append_of_mem hmem
    refine ⟨before, after, rfl, ?_⟩
    intro later hlater hscale
    rw [List.map_append, List.map_cons] at h
    have hnew := (List.nodup_cons.mp (List.nodup_append.mp h).2.1).1
    exact hnew (List.mem_map.mpr ⟨later, hlater, hscale⟩)

/-- With one constraint for each scale their order does not matter. -/
theorem ofConstraints_perm {others : List (Scale × List Span)} (h : others.Perm constraints)
    (hnodup : (constraints.map Prod.fst).Nodup) :
    ofConstraints others = ofConstraints constraints := by
  have hothers : (others.map Prod.fst).Nodup := (h.map Prod.fst).nodup_iff.mpr hnodup
  ext scale spans
  rw [spans?_ofConstraints_eq_some_iff hothers, spans?_ofConstraints_eq_some_iff hnodup, h.mem_iff]

/-- A period accepts what its constraints cover, those aside that later ones replace. -/
theorem accepts_ofConstraints_iff (constraints : List (Scale × List Span)) (x : Assignment) :
    (ofConstraints constraints).accepts x = true ↔
      ∀ before constraint after, constraints = before ++ constraint :: after →
        (∀ later ∈ after, later.1 ≠ constraint.1) →
        Span.anyCovers constraint.2 (x constraint.1) = true := by
  simp only [accepts_iff, spans?_ofConstraints_eq_some_iff_last]
  constructor
  · intro h before constraint after hsplit hlater
    exact h constraint.1 constraint.2 ⟨before, after, hsplit, hlater⟩
  · rintro h scale spans ⟨before, after, hsplit, hlater⟩
    exact h before (scale, spans) after hsplit hlater

theorem isUnconstrained_eq_false_iff (p : Period) :
    p.isUnconstrained = false ↔ ∃ scale spans, p.spans? scale = some spans := by
  rw [← Bool.not_eq_true, isUnconstrained, List.all_eq_true]
  simp only [constrains, Bool.not_eq_true', Option.isSome_eq_false_iff, Option.isNone_iff_eq_none]
  constructor
  · intro h
    by_contra hnone
    apply h
    intro scale _
    apply Option.eq_none_iff_forall_ne_some.mpr
    intro spans hspans
    exact hnone ⟨scale, spans, hspans⟩
  · rintro ⟨scale, spans, hspans⟩ h
    rw [h scale (Scale.mem_all scale)] at hspans
    cases hspans

/-- The last constraint leaves its scale constrained. -/
theorem isUnconstrained_ofConstraints (h : constraints ≠ []) :
    (ofConstraints constraints).isUnconstrained = false := by
  obtain ⟨before, last, rfl⟩ := (List.eq_nil_or_concat constraints).resolve_left h
  refine (isUnconstrained_eq_false_iff _).mpr ⟨last.1, last.2, ?_⟩
  refine (spans?_ofConstraints_eq_some_iff_last _ _ _).mpr ⟨before, [], ?_, by simp⟩
  rw [List.concat_eq_append]

theorem nodup_constraints (p : Period) : (p.constraints.map Prod.fst).Nodup :=
  Scale.nodup_map_fst Scale.nodup_all p.spans?

/-- A period is built from its own constraints. -/
theorem ofConstraints_constraints (p : Period) : ofConstraints p.constraints = p := by
  ext scale spans
  rw [spans?_ofConstraints_eq_some_iff p.nodup_constraints, mem_constraints]

end Period

end Timetable
