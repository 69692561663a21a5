import Timetable.Logged
import Timetable.Period.Basic

/-!
# Meetings of periods

Two periods meet in the values that they share on common scales and in the values
of the one that constrains a scale alone. The meeting is a period unless some
scale is left without values. Two lists of periods intersect in the meetings of
each left period with each right one. Their periods are built scale by scale, and
every scale is reported.
-/

namespace Timetable

variable {ε : Type}

/-- The values left to each constrained scale where two periods meet. -/
abbrev Meeting := List (Scale × List Nat)

namespace Meeting

/-- The values left to a scale, if either period constrains it. -/
def valuesAt? (left right : Period) (scale : Scale) : Option (List Nat) :=
  match left.spans? scale, right.spans? scale with
  | some l, some r => some ((Span.distinctValues l).filter (Span.anyCovers r))
  | some l, none => some (Span.distinctValues l)
  | none, some r => some (Span.distinctValues r)
  | none, none => none

/-- The order in which a meeting looks at the scales: those that the left period
constrains come first. -/
def scaleOrder (left : Period) : List Scale :=
  Scale.all.filter left.constrains ++ Scale.all.filter fun scale => !left.constrains scale

/-- The meeting of two periods. -/
def ofPeriods (left right : Period) : Meeting :=
  (scaleOrder left).filterMap fun scale =>
    (valuesAt? left right scale).map fun values => (scale, values)

/-- Whether every scale has values left. -/
def isSatisfiable (meeting : Meeting) : Bool := meeting.all fun entry => !entry.2.isEmpty

/-- The period of a meeting, unless a scale has no values left. -/
def period? (meeting : Meeting) : Option Period :=
  if meeting.isSatisfiable then
    some (Period.ofConstraints
      (meeting.map fun entry => (entry.1, Span.ofAscending entry.1.boundary entry.2)))
  else none

/-- Constrains a period by the values of each scale in turn, up to a scale without values. The
values of each scale are gathered into spans, which is reported. -/
def build (period : Period) : Meeting → Logged ε (Option Period)
  | [] => pure (some period)
  | (scale, values) :: rest =>
    if values.isEmpty then pure none
    else do
      Logged.report (.gathered scale values.length)
      build (period.constrain scale (Span.ofAscending scale.boundary values)) rest

/-- The meetings of every left period with every right one, left by left. -/
def all (left right : List Period) : List Meeting :=
  left.flatMap fun l => right.map fun r => ofPeriods l r

theorem mem_scaleOrder (left : Period) (scale : Scale) : scale ∈ scaleOrder left := by
  cases h : left.constrains scale <;> simp [scaleOrder, Scale.mem_all, h]

/-- A meeting lists every scale with its values once either period constrains it. -/
theorem mem_ofPeriods (left right : Period) (scale : Scale) (values : List Nat) :
    (scale, values) ∈ ofPeriods left right ↔ valuesAt? left right scale = some values := by
  simp only [ofPeriods, List.mem_filterMap, Option.map_eq_some_iff, Prod.mk.injEq]
  constructor
  · rintro ⟨_, _, _, h, rfl, rfl⟩
    exact h
  · exact fun h => ⟨scale, mem_scaleOrder left scale, values, h, rfl, rfl⟩

/-- The values left to a scale are those that both periods allow it. -/
theorem mem_valuesAt {left right : Period} {scale : Scale} {values : List Nat}
    (h : valuesAt? left right scale = some values) (value : Nat) :
    value ∈ values ↔
      (∀ spans, left.spans? scale = some spans → Span.anyCovers spans value = true) ∧
        ∀ spans, right.spans? scale = some spans → Span.anyCovers spans value = true := by
  unfold valuesAt? at h
  cases hl : left.spans? scale <;> cases hr : right.spans? scale <;> simp only [hl, hr] at h
  · cases h
  all_goals
    obtain rfl := Option.some.inj h
    simp [Span.mem_distinctValues]

end Meeting

namespace Period

/-- The periods of all satisfiable meetings of two lists. -/
def intersect (left right : List Period) : List Period :=
  (Meeting.all left right).filterMap Meeting.period?

end Period

/-- Intersects two lists of periods: builds the period of each meeting, and reports how many
meetings have one. -/
def Logged.intersect (left right : List Period) : Logged ε (List Period) := do
  let results ← Logged.traverse (Meeting.build .unconstrained) (Meeting.all left right)
  let periods := results.filterMap id
  Logged.report (.intersected left.length right.length periods.length)
  pure periods

end Timetable
