import Timetable.Proofs.Schedule.Printing
import Timetable.Schedule.Encoded

/-!
# Reading printed schedules back

Parsing the text of a schedule, or decoding its data, restores an equivalent
schedule exactly when every stored span is legible. An hour 0 that is lost shows
in the result: the period that has it is not restored from any text, because
what is read for an illegible period never allows hour 0. A legible schedule is
restored as the very same lists of periods, and which stored spans are not
legible can be said outright.
-/

namespace Timetable.Schedule

open Expression (Phrase parted)

/-- All spans of the schedule are read for their own values: no span of hours is the first
hour or the whole day, and only single spans go past the last value of the domain. -/
structure IsLegible (schedule : Schedule) : Prop where
  positive : ∀ p ∈ schedule.positive, p.IsLegible
  negative : ∀ p ∈ schedule.negative, p.IsLegible

instance (schedule : Schedule) : Decidable schedule.IsLegible :=
  decidable_of_iff ((∀ p ∈ schedule.positive, p.IsLegible) ∧ ∀ p ∈ schedule.negative, p.IsLegible)
    ⟨fun h => ⟨h.1, h.2⟩, fun h => ⟨h.positive, h.negative⟩⟩

variable {schedule : Schedule}

theorem Equivalent.refl (schedule : Schedule) : schedule.Equivalent schedule :=
  ⟨fun _ => Iff.rfl, fun _ => Iff.rfl⟩

theorem mem_phrases {phrase : Phrase} :
    phrase ∈ schedule.phrases ↔ (∃ p ∈ schedule.positive, p.phrase false = phrase) ∨
      ∃ p ∈ schedule.negative, p.phrase true = phrase := by
  rw [phrases, List.mem_append, List.mem_map, List.mem_map]

/-- Parting undoes putting signs on periods. -/
theorem parted_signed (positive negative : List Period) :
    parted (positive.map (·, false) ++ negative.map (·, true)) = (positive, negative) := by
  simp [parted, List.filter_map, Function.comp_def]

/-- A legible schedule is read back as it is. -/
theorem parse_text_of_isLegible (hstored : schedule.IsStored) (h : schedule.IsLegible) :
    parse schedule.text = .ok schedule := by
  refine (parse_eq_ok_iff hstored.written_text schedule).mpr
    ⟨schedule.positive.map (·, false) ++ schedule.negative.map (·, true), ?_, ?_⟩
  · have hyields : ∀ {periods : List Period} (negative : Bool), (∀ p ∈ periods, p.IsStored) →
        (∀ p ∈ periods, p.IsLegible) →
        List.Forall₂ Phrase.Yields (periods.map fun p => p.phrase negative)
          (periods.map (·, negative)) := by
      intro periods negative hperiods hlegible
      apply Pointwise.map_map_of_mem
      intro p hp
      exact (hlegible p hp).yields_phrase (hperiods p hp) negative
    apply List.rel_append
    · exact hyields false hstored.positive h.positive
    · exact hyields true hstored.negative h.negative
  · rw [parted_signed]

/-- If all printed periods of one sign are read, and each of them is among the periods that
are read, then all of them are legible. -/
theorem isLegible_of_restored {periods restored : List Period} {negative : Bool}
    (hstored : ∀ p ∈ periods, p.IsStored)
    (hread : ∀ p ∈ periods, ∃ q, (p.phrase negative).Yields (q, negative))
    (hsource : ∀ q ∈ restored, ∃ p ∈ periods, (p.phrase negative).Yields (q, negative))
    (hsame : ∀ p ∈ periods, p ∈ restored) : ∀ p ∈ periods, p.IsLegible := by
  intro p hp
  by_contra hbad
  obtain ⟨q, hq⟩ := hread p hp
  obtain ⟨-, hmidnight, -⟩ :=
    (Period.cases_of_yields_phrase (hstored p hp) hq).resolve_left fun hkeep => hbad hkeep.1
  obtain ⟨other, hother, hrestores⟩ := hsource p (hsame p hp)
  rcases Period.cases_of_yields_phrase (hstored other hother) hrestores with
    ⟨hlegible, rfl⟩ | ⟨-, -, hlost⟩
  · exact hbad hlegible
  · exact hlost hmidnight

/-- Only legible schedules are read back as equivalent ones. -/
theorem isLegible_of_parse_text {restored : Schedule} (hstored : schedule.IsStored)
    (h : parse schedule.text = .ok restored) (hsame : restored.Equivalent schedule) :
    schedule.IsLegible := by
  obtain ⟨results, hresults, rfl⟩ := (parse_eq_ok_iff hstored.written_text restored).mp h
  have hread : ∀ {p : Period} {negative : Bool}, p.phrase negative ∈ schedule.phrases →
      ∃ q, (p.phrase negative).Yields (q, negative) := by
    intro p negative hphrase
    obtain ⟨result, -, hyields⟩ := Pointwise.exists_right hresults hphrase
    have hsign : result.2 = negative := hyields.negative_eq
    exact ⟨result.1, hsign ▸ hyields⟩
  have hsource : ∀ {q negative}, (q, negative) ∈ results →
      ∃ phrase ∈ schedule.phrases, phrase.negative = negative ∧ phrase.Yields (q, negative) := by
    intro q negative hq
    obtain ⟨phrase, hphrase, hyields⟩ := Pointwise.exists_left hresults hq
    exact ⟨phrase, hphrase, hyields.negative_eq.symm, hyields⟩
  constructor
  · apply isLegible_of_restored hstored.positive
    · intro p hp
      exact hread (mem_phrases.mpr (Or.inl ⟨p, hp, rfl⟩))
    · intro q hq
      obtain ⟨phrase, hphrase, hsign, hyields⟩ := hsource (mem_parted_fst.mp hq)
      rcases mem_phrases.mp hphrase with ⟨p, hp, rfl⟩ | ⟨p, -, rfl⟩
      · exact ⟨p, hp, hyields⟩
      · cases hsign
    · exact fun p hp => (hsame.1 p).mpr hp
  · apply isLegible_of_restored hstored.negative
    · intro p hp
      exact hread (mem_phrases.mpr (Or.inr ⟨p, hp, rfl⟩))
    · intro q hq
      obtain ⟨phrase, hphrase, hsign, hyields⟩ := hsource (mem_parted_snd.mp hq)
      rcases mem_phrases.mp hphrase with ⟨p, -, rfl⟩ | ⟨p, hp, rfl⟩
      · cases hsign
      · exact ⟨p, hp, hyields⟩
    · exact fun p hp => (hsame.2 p).mpr hp

/-- A reachable schedule is restored from its text, and likewise from its data, exactly when
all its spans are legible. -/
theorem restored_iff_isLegible (h : schedule.Reachable) :
    ((∃ restored, parse schedule.text = .ok restored ∧ restored.Equivalent schedule) ↔
      schedule.IsLegible) ∧
    ((∃ restored, (Encoded.ofSchedule schedule).schedule = .ok restored ∧
      restored.Equivalent schedule) ↔ schedule.IsLegible) := by
  have hstored := h.isStored
  have hparse : (∃ restored, parse schedule.text = .ok restored ∧ restored.Equivalent schedule) ↔
      schedule.IsLegible := by
    constructor
    · rintro ⟨restored, hrestored, hsame⟩
      exact isLegible_of_parse_text hstored hrestored hsame
    · intro hlegible
      exact ⟨schedule, parse_text_of_isLegible hstored hlegible, Equivalent.refl schedule⟩
  have hdecode : ∀ restored, (Encoded.ofSchedule schedule).schedule = .ok restored ↔
      parse schedule.text = .ok restored := by
    intro restored
    change (parse schedule.text).mapError Error.message = .ok restored ↔ _
    cases parse schedule.text <;> simp [Except.mapError]
  refine ⟨hparse, ?_⟩
  simp only [hdecode]
  exact hparse

/-- Weekday nights that wrap around midnight, outside of summer. -/
theorem restored_nights_iff_isLegible :
    ∃ schedule : Schedule, schedule.Reachable ∧ schedule.IsLegible ∧
      ((∃ restored, parse schedule.text = .ok restored ∧ restored.Equivalent schedule) ↔
        schedule.IsLegible) ∧
      ((∃ restored, (Encoded.ofSchedule schedule).schedule = .ok restored ∧
        restored.Equivalent schedule) ↔ schedule.IsLegible) := by
  have hnights : parse "wd {1-5} hr {10pm-6}".toList = .ok
      ⟨[.ofConstraints [(.weekDay, [⟨1, 5, .inclusive⟩]),
        (.hour, [⟨0, 6, .exclusive⟩, ⟨22, 24, .exclusive⟩])]], []⟩ := by
    decide +kernel
  have hsummer : parse "not mo {jun-aug}".toList = .ok
      ⟨[], [.ofConstraints [(.month, [⟨6, 8, .inclusive⟩])]]⟩ := by
    decide +kernel
  have hreachable := (Reachable.parsed hnights).intersection (Reachable.parsed hsummer)
  exact ⟨_, hreachable, by decide +kernel, restored_iff_isLegible hreachable⟩

/-- The first hour of the day is printed as hour 0, which is read for the end of the day. -/
theorem not_forall_reachable_restored :
    ¬∀ schedule : Schedule, schedule.Reachable →
      ∃ restored, parse schedule.text = .ok restored ∧ restored.Equivalent schedule := by
  intro h
  have hparse : parse "hr {0-1}".toList = .ok
      ⟨[.ofConstraints [(.hour, [⟨0, 1, .exclusive⟩])]], []⟩ := by
    decide +kernel
  have hread : parse (Schedule.mk [.ofConstraints [(.hour, [⟨0, 1, .exclusive⟩])]] []).text = .ok
      ⟨[.ofConstraints [(.hour, [⟨24, 25, .exclusive⟩])]], []⟩ := by
    decide +kernel
  obtain ⟨restored, hrestored, hsame⟩ := h _ (Reachable.parsed hparse)
  obtain rfl := Except.ok.inj (hread.symm.trans hrestored)
  revert hsame
  decide +kernel

/-- The text of a reachable schedule is parsed as the very same lists of periods exactly when
no span of any period is misread. -/
theorem parse_text_eq_self_iff (h : schedule.Reachable) :
    parse schedule.text = .ok schedule ↔
      ∀ p ∈ schedule.positive ++ schedule.negative, ∀ scale spans,
        p.spans? scale = some spans → ∀ span ∈ spans, ¬span.IsMisread scale := by
  have hstored := h.isStored
  constructor
  · intro hparse p hp
    have hlegible := isLegible_of_parse_text hstored hparse (Equivalent.refl schedule)
    rcases List.mem_append.mp hp with hp | hp
    · exact (hstored.positive p hp).isLegible_iff.mp (hlegible.positive p hp)
    · exact (hstored.negative p hp).isLegible_iff.mp (hlegible.negative p hp)
  · intro hkeep
    apply parse_text_of_isLegible hstored
    constructor
    · intro p hp
      exact (hstored.positive p hp).isLegible_iff.mpr (hkeep p (List.mem_append_left _ hp))
    · intro p hp
      exact (hstored.negative p hp).isLegible_iff.mpr (hkeep p (List.mem_append_right _ hp))

/-- The last values of the hours, minutes and seconds by themselves, a night around midnight
and a period that is listed twice. -/
theorem parse_text_midnights_eq_self_iff :
    let ends : Period := .ofConstraints [(.hour, [⟨0, 6, .exclusive⟩, ⟨24, 25, .exclusive⟩]),
      (.minute, [⟨60, 61, .exclusive⟩])]
    let weekends : Period := .ofConstraints
      [(.weekDay, [⟨0, 1, .inclusive⟩, ⟨5, 6, .inclusive⟩]), (.second, [⟨30, 60, .exclusive⟩])]
    let schedule : Schedule := ⟨[ends, ends], [weekends]⟩
    parse "hr {24 0-6} min {60}, hr {24 0-6} min {60}, not wd {fri-mon} sec {30-60}".toList =
        .ok schedule ∧
      schedule.Reachable ∧
      "hr { 0-6 24 } min { 60 }, hr { 0-6 24 } min { 60 }, not wd { 0-1 5-6 } sec { 30-60 }".toList
        = schedule.text ∧
      parse schedule.text = .ok schedule ∧
      (parse schedule.text = .ok schedule ↔
        ∀ p ∈ schedule.positive ++ schedule.negative, ∀ scale spans,
          p.spans? scale = some spans → ∀ span ∈ spans, ¬span.IsMisread scale) := by
  intro ends weekends schedule
  have hparse : parse
      "hr {24 0-6} min {60}, hr {24 0-6} min {60}, not wd {fri-mon} sec {30-60}".toList =
        .ok schedule := by
    decide +kernel +revert
  have hprinted :
      "hr { 0-6 24 } min { 60 }, hr { 0-6 24 } min { 60 }, not wd { 0-1 5-6 } sec { 30-60 }".toList
        = schedule.text ∧ parse schedule.text = .ok schedule := by
    decide +kernel +revert
  have hreachable : schedule.Reachable := Reachable.parsed hparse
  exact ⟨hparse, hreachable, hprinted.1, hprinted.2, parse_text_eq_self_iff hreachable⟩

end Timetable.Schedule
