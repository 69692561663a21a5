import Mathlib.Data.List.Forall2
import Timetable.Logged
import Timetable.Proofs.Pointwise

/-!
# Outcomes and events of logged computations

A logged computation succeeds exactly when each of its steps does, on the values
that the steps before it yield. Its events are then those of its steps, in order.
-/

namespace Timetable.Logged

variable {ε α β : Type}

theorem outcome_bind_eq_ok_iff (first : Logged ε α) (second : α → Logged ε β) (b : β) :
    (first >>= second).outcome = .ok b ↔
      ∃ a, first.outcome = .ok a ∧ (second a).outcome = .ok b := by
  cases h : first.outcome with
  | ok a => simp [bind_of_ok h]
  | error e => simp [bind_of_error h]

theorem outcome_bind_eq_error_iff (first : Logged ε α) (second : α → Logged ε β) (e : ε) :
    (first >>= second).outcome = .error e ↔
      first.outcome = .error e ∨ ∃ a, first.outcome = .ok a ∧ (second a).outcome = .error e := by
  cases h : first.outcome with
  | ok a => simp [bind_of_ok h]
  | error e => simp [bind_of_error h]

/-- A run over a list yields the values that its entries yield. -/
theorem outcome_traverse_eq_ok_iff (step : α → Logged ε β) (entries : List α) (values : List β) :
    (traverse step entries).outcome = .ok values ↔
      List.Forall₂ (fun a b => (step a).outcome = .ok b) entries values := by
  induction entries generalizing values with
  | nil => simp [traverse, eq_comm]
  | cons a rest ih =>
      simp only [traverse, outcome_bind_eq_ok_iff, outcome_pure, ih, List.forall₂_cons_left_iff]
      constructor
      · rintro ⟨b, hb, bs, hbs, hvalues⟩
        exact ⟨b, bs, hb, hbs, (Except.ok.inj hvalues).symm⟩
      · rintro ⟨b, bs, hb, hbs, rfl⟩
        exact ⟨b, hb, bs, hbs, rfl⟩

/-- A run over a list fails like the first entry that does. -/
theorem outcome_traverse_eq_error {step : α → Logged ε β} {before after : List α} {a : α}
    {values : List β} {e : ε}
    (hbefore : List.Forall₂ (fun a b => (step a).outcome = .ok b) before values)
    (ha : (step a).outcome = .error e) :
    (traverse step (before ++ a :: after)).outcome = .error e := by
  induction hbefore with
  | nil => rw [List.nil_append, traverse, bind_of_error ha]
  | cons hfirst _ ih => rw [List.cons_append, traverse, bind_of_ok hfirst, bind_of_error ih]

/-- A run over a list fails exactly like its first entry that does. -/
theorem outcome_traverse_eq_error_iff (step : α → Logged ε β) (entries : List α) (e : ε) :
    (traverse step entries).outcome = .error e ↔
      ∃ before a after, entries = before ++ a :: after ∧
        (∀ entry ∈ before, ∃ b, (step entry).outcome = .ok b) ∧ (step a).outcome = .error e := by
  constructor
  · intro h
    induction entries with
    | nil => cases h
    | cons a rest ih =>
        simp only [traverse, outcome_bind_eq_error_iff, outcome_pure] at h
        rcases h with h | ⟨b, hb, h | ⟨_, _, h⟩⟩
        · exact ⟨[], a, rest, rfl, fun _ hmem => absurd hmem List.not_mem_nil, h⟩
        · obtain ⟨before, c, after, rfl, hbefore, hc⟩ := ih h
          exact ⟨a :: before, c, after, rfl, List.forall_mem_cons.mpr ⟨⟨b, hb⟩, hbefore⟩, hc⟩
        · cases h
  · rintro ⟨before, a, after, rfl, hbefore, ha⟩
    obtain ⟨values, hvalues⟩ := Pointwise.exists_forall₂ hbefore
    exact outcome_traverse_eq_error hvalues ha

theorem events_bind {first : Logged ε α} {second : α → Logged ε β} {a : α}
    (h : first.outcome = .ok a) :
    (first >>= second).events = first.events ++ (second a).events := by
  rw [bind_of_ok h]

/-- A value is changed without an event. -/
theorem events_bind_pure (first : Logged ε α) (f : α → β) :
    (first >>= fun a => pure (f a)).events = first.events := by
  cases h : first.outcome with
  | ok a => rw [events_bind h, events_pure, List.append_nil]
  | error e => rw [bind_of_error h]

/-- A successful run over a list has the events of its entries. -/
theorem events_traverse {step : α → Logged ε β} {entries : List α} {values : List β}
    (h : (traverse step entries).outcome = .ok values) :
    (traverse step entries).events = entries.flatMap fun a => (step a).events := by
  rw [outcome_traverse_eq_ok_iff] at h
  induction h with
  | nil => rfl
  | cons hfirst hrest ih =>
      have htail := (outcome_traverse_eq_ok_iff step _ _).mpr hrest
      rw [traverse, events_bind hfirst, events_bind htail, ih, events_pure, List.append_nil,
        List.flatMap_cons]

end Timetable.Logged
