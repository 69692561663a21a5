import Timetable.Event

/-!
# Logged computations

A logged computation yields its events together with its outcome. The events up
to a failure are kept, and leaving the events out leaves the plain computation.
-/

namespace Timetable

variable {ε α β : Type}

/-- The events of a computation and its outcome. -/
@[ext] structure Logged (ε α : Type) where
  events : List Event
  outcome : Except ε α

namespace Logged

/-- A result without events. -/
def silent (outcome : Except ε α) : Logged ε α := ⟨[], outcome⟩

/-- One event. -/
def report (event : Event) : Logged ε Unit := ⟨[event], .ok ()⟩

/-- Runs the second computation on the first one's value, unless that failed. -/
protected def bind (first : Logged ε α) (second : α → Logged ε β) : Logged ε β :=
  match first.outcome with
  | .ok a =>
    let next := second a
    ⟨first.events ++ next.events, next.outcome⟩
  | .error e => ⟨first.events, .error e⟩

instance : Monad (Logged ε) where
  pure a := silent (.ok a)
  bind := Logged.bind

/-- Runs a computation on each entry in turn, up to the first failure. -/
def traverse (step : α → Logged ε β) : List α → Logged ε (List β)
  | [] => pure []
  | a :: rest => do
    let b ← step a
    let bs ← traverse step rest
    pure (b :: bs)

@[simp] theorem outcome_pure (a : α) : (pure a : Logged ε α).outcome = .ok a := rfl

@[simp] theorem events_pure (a : α) : (pure a : Logged ε α).events = [] := rfl

@[simp] theorem outcome_silent (outcome : Except ε α) : (silent outcome).outcome = outcome := rfl

@[simp] theorem events_silent (outcome : Except ε α) : (silent outcome).events = [] := rfl

@[simp] theorem outcome_report (event : Event) :
    (report event : Logged ε Unit).outcome = .ok () := rfl

@[simp] theorem events_report (event : Event) :
    (report event : Logged ε Unit).events = [event] := rfl

@[simp] theorem outcome_bind (first : Logged ε α) (second : α → Logged ε β) :
    (first >>= second).outcome = first.outcome >>= fun a => (second a).outcome := by
  change (Logged.bind first second).outcome = _
  unfold Logged.bind
  cases first.outcome <;> rfl

theorem bind_of_ok {first : Logged ε α} {second : α → Logged ε β} {a : α}
    (h : first.outcome = .ok a) :
    first >>= second = ⟨first.events ++ (second a).events, (second a).outcome⟩ := by
  change Logged.bind first second = _
  unfold Logged.bind
  rw [h]

theorem bind_of_error {first : Logged ε α} {second : α → Logged ε β} {e : ε}
    (h : first.outcome = .error e) : first >>= second = ⟨first.events, .error e⟩ := by
  change Logged.bind first second = _
  unfold Logged.bind
  rw [h]

/-- Without its events, a run over a list is the plain run of the outcomes. -/
theorem outcome_traverse (step : α → Logged ε β) (entries : List α) :
    (traverse step entries).outcome = entries.mapM fun a => (step a).outcome := by
  induction entries with
  | nil => rfl
  | cons a rest ih =>
    simp only [traverse, outcome_bind, outcome_pure, ih, List.mapM_cons]
    rfl

end Logged

end Timetable
