import Timetable.Span.Values

/-!
# Periods

A period constrains some of the nine scales by lists of spans. It matches an
assignment of values to the scales when every constrained scale has its value in
one of its spans. A scale constrained by no spans at all matches nothing.
-/

namespace Timetable

/-- The spans of each constrained scale. -/
@[ext] structure Period where
  spans? : Scale → Option (List Span)

/-- A value for every scale. -/
abbrev Assignment := Scale → Nat

namespace Period

/-- The period without constraints. -/
def unconstrained : Period := ⟨fun _ => none⟩

/-- The period with one scale constrained anew. -/
def constrain (period : Period) (scale : Scale) (spans : List Span) : Period :=
  ⟨fun other => if other = scale then some spans else period.spans? other⟩

/-- The period with the given constraints, the last one for each scale. -/
def ofConstraints (constraints : List (Scale × List Span)) : Period :=
  constraints.foldl (fun period c => period.constrain c.1 c.2) unconstrained

/-- The period that matches nothing because no year does. -/
def never : Period := unconstrained.constrain .year []

/-- The constraints in the order of the scales. -/
def constraints (period : Period) : List (Scale × List Span) :=
  Scale.all.filterMap fun scale => (period.spans? scale).map fun spans => (scale, spans)

/-- Whether the scale is constrained, be it by an empty list of spans. -/
def constrains (period : Period) (scale : Scale) : Bool := (period.spans? scale).isSome

/-- Whether no scale is constrained. -/
def isUnconstrained (period : Period) : Bool :=
  Scale.all.all fun scale => !period.constrains scale

/-- Whether no scale is constrained by an empty list of spans. -/
def isSatisfiable (period : Period) : Bool :=
  Scale.all.all fun scale => period.spans? scale != some []

/-- Whether the value of every constrained scale lies in one of its spans. -/
def accepts (period : Period) (assignment : Assignment) : Bool :=
  Scale.all.all fun scale =>
    (period.spans? scale).all fun spans => Span.anyCovers spans (assignment scale)

theorem eq_iff (p q : Period) : p = q ↔ ∀ scale ∈ Scale.all, p.spans? scale = q.spans? scale :=
  ⟨fun h _ _ => h ▸ rfl, fun h => Period.ext (funext fun scale => h scale (Scale.mem_all scale))⟩

instance : DecidableEq Period := fun p q => decidable_of_iff _ (eq_iff p q).symm

/-- Periods are ordered like their lists of constraints, a prefix before its
extensions. -/
instance : Ord Period :=
  ⟨fun p q =>
    List.compareLex (compareLex (compareOn Prod.fst) (compareOn Prod.snd))
      p.constraints q.constraints⟩

/-- One constraint: the scale's code and its spans between braces. -/
def constraintText (constraint : Scale × List Span) : Text :=
  constraint.1.code ++ " \x7b ".toList ++ " ".toList.intercalate (constraint.2.map Span.text) ++
    " \x7d".toList

def text (period : Period) : Text :=
  " ".toList.intercalate (period.constraints.map constraintText)

/-- Periods separated by commas. -/
def listText (periods : List Period) : Text :=
  ", ".toList.intercalate (periods.map text)

@[simp] theorem spans?_constrain (period : Period) (scale other : Scale) (spans : List Span) :
    (period.constrain scale spans).spans? other =
      if other = scale then some spans else period.spans? other := rfl

@[simp] theorem spans?_unconstrained (scale : Scale) :
    unconstrained.spans? scale = none := rfl

/-- Of several constraints of one scale the last one counts. -/
theorem spans?_ofConstraints (constraints : List (Scale × List Span)) (scale : Scale) :
    (ofConstraints constraints).spans? scale =
      (constraints.reverse.find? fun c => scale == c.1).map Prod.snd := by
  rw [ofConstraints, ← List.foldr_reverse]
  induction constraints.reverse with
  | nil => rfl
  | cons c rest ih =>
    by_cases h : scale = c.1 <;> simp_all

theorem mem_constraints (period : Period) (scale : Scale) (spans : List Span) :
    (scale, spans) ∈ period.constraints ↔ period.spans? scale = some spans := by
  simp only [constraints, List.mem_filterMap, Option.map_eq_some_iff, Prod.mk.injEq]
  constructor
  · rintro ⟨_, _, _, h, rfl, rfl⟩
    exact h
  · exact fun h => ⟨scale, Scale.mem_all scale, spans, h, rfl, rfl⟩

theorem accepts_iff (period : Period) (assignment : Assignment) :
    period.accepts assignment = true ↔
      ∀ scale spans, period.spans? scale = some spans →
        Span.anyCovers spans (assignment scale) = true := by
  simp only [accepts, List.all_eq_true, Option.all_eq_true_iff_get]
  constructor
  · intro h scale spans hs
    simpa [hs] using h scale (Scale.mem_all scale)
  · intro h scale _ hs
    exact h scale _ (by simp)

end Period

end Timetable
