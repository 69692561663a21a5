import Timetable.Proofs.Period.Order
import Timetable.Proofs.Schedule.Printing

/-!
# Telling printed schedules apart

A text is written as one list of phrases only, since its clauses and their groups are
cut at commas and braces and its items are read off their tokens. So the phrases that a
schedule is printed as can be recovered from its text. The negated ones among them are
those of the negative periods, and the boundaries that are not printed are those of the
scales, so the phrases leave no doubt about the periods.
-/

namespace Timetable

/-! ## Phrases -/

namespace Expression

/-- A group is matched by one listing only. -/
theorem Listing.leftUnique_matches : Relator.LeftUnique Listing.Matches := by
  intro listing other group h hother
  obtain ⟨scale, items⟩ := listing
  obtain ⟨scale', items'⟩ := other
  obtain ⟨hscale, hitems⟩ := h
  obtain ⟨hscale', hitems'⟩ := hother
  obtain rfl : scale = scale' := hscale.symm.trans hscale'
  obtain rfl : items = items' :=
    hitems.map_ofToken_tokens.symm.trans hitems'.map_ofToken_tokens
  rfl

/-- A text is written as one phrase only. -/
theorem Phrase.Written.unique {phrase other : Phrase} {t : Text} (h : phrase.Written t)
    (hother : other.Written t) : phrase = other := by
  obtain ⟨-, hnegative, hmatch⟩ := (Phrase.written_iff phrase t).mp h
  obtain ⟨-, hnegative', hmatch'⟩ := (Phrase.written_iff other t).mp hother
  obtain ⟨negative, listings⟩ := phrase
  obtain ⟨negative', listings'⟩ := other
  obtain rfl : negative = negative' := hnegative.symm.trans hnegative'
  obtain rfl : listings = listings' :=
    Listing.leftUnique_matches.forall₂ hmatch hmatch'
  rfl

/-- A text is written as one list of phrases only. -/
theorem Written.unique {phrases others : List Phrase} {t : Text} (h : Written phrases t)
    (hothers : Written others t) : phrases = others := by
  have hright : Relator.RightUnique fun piece (phrase : Phrase) =>
      phrase.Written (Text.lowercase (Text.trim piece)) :=
    fun _ _ _ hphrase hother => hphrase.unique hother
  exact hright.forall₂ ((written_iff phrases t).mp h) ((written_iff others t).mp hothers)

end Expression

/-! ## Spans -/

theorem Text.ofNat_injective : Function.Injective Text.ofNat :=
  Function.LeftInverse.injective Text.toNat_ofNat

/-- The item of a span leaves nothing but its boundary open. -/
theorem Span.eq_of_item_eq {a b : Span} (hboundary : a.boundary = b.boundary)
    (h : a.item = b.item) : a = b := by
  unfold item at h
  split at h
  · next ha =>
      split at h
      · next hb =>
          have hstart := Text.ofNat_injective (Expression.Item.single.inj h)
          calc
            a = single a.start a.boundary := (single_start_eq ha).symm
            _ = single b.start b.boundary := by rw [hstart, hboundary]
            _ = b := single_start_eq hb
      · cases h
  · split at h
    · cases h
    · obtain ⟨hstart, hstop⟩ := Expression.Item.interval.inj h
      obtain ⟨start, stop, boundary⟩ := a
      obtain ⟨start', stop', boundary'⟩ := b
      obtain rfl : start = start' := Text.ofNat_injective hstart
      obtain rfl : stop = stop' := Text.ofNat_injective hstop
      obtain rfl : boundary = boundary' := hboundary
      rfl

/-! ## Periods -/

namespace Period

variable {p q : Period}

theorem IsStored.boundary_eq (hp : p.IsStored) {c : Scale × List Span} (hc : c ∈ p.constraints)
    {span : Span} (hspan : span ∈ c.2) : span.boundary = c.1.boundary :=
  (hp.isCoalesced ((mem_constraints p c.1 c.2).mp hc)).boundary_eq span hspan

/-- Stored periods that are printed as the same phrase are the same. -/
theorem IsStored.eq_of_phrase_eq (hp : p.IsStored) (hq : q.IsStored) {negative : Bool}
    (h : p.phrase negative = q.phrase negative) : p = q := by
  apply constraints_injective
  apply Pointwise.eq_of_map_eq (congrArg Expression.Phrase.listings h)
  intro c hc d hd hcd
  obtain ⟨hscale, hitems⟩ := Expression.Listing.mk.inj hcd
  apply Prod.ext hscale
  apply Pointwise.eq_of_map_eq hitems
  intro a ha b hb hab
  apply Span.eq_of_item_eq _ hab
  rw [hp.boundary_eq hc ha, hq.boundary_eq hd hb, hscale]

/-- Lists of stored periods that are printed as the same phrases are the same. -/
theorem eq_of_map_phrase_eq {ps qs : List Period} (hps : ∀ p ∈ ps, p.IsStored)
    (hqs : ∀ q ∈ qs, q.IsStored) {negative : Bool}
    (h : ps.map (fun p => p.phrase negative) = qs.map fun q => q.phrase negative) : ps = qs := by
  apply Pointwise.eq_of_map_eq h
  intro p hp q hq hpq
  exact (hps p hp).eq_of_phrase_eq (hqs q hq) hpq

end Period

/-! ## Schedules -/

namespace Schedule

variable {a b : Schedule}

theorem filter_negative_phrases (schedule : Schedule) :
    schedule.phrases.filter (fun phrase => phrase.negative) =
      schedule.negative.map fun p => p.phrase true := by
  simp [phrases, Period.phrase, List.filter_map, Function.comp_def]

theorem filter_not_negative_phrases (schedule : Schedule) :
    schedule.phrases.filter (fun phrase => !phrase.negative) =
      schedule.positive.map fun p => p.phrase false := by
  simp [phrases, Period.phrase, List.filter_map, Function.comp_def]

/-- Stored schedules that are printed as the same phrases have the same periods. -/
theorem IsStored.eq_of_phrases_eq (ha : a.IsStored) (hb : b.IsStored)
    (h : a.phrases = b.phrases) : a.positive = b.positive ∧ a.negative = b.negative := by
  constructor
  · apply Period.eq_of_map_phrase_eq ha.positive hb.positive
    rw [← filter_not_negative_phrases, h, filter_not_negative_phrases]
  · apply Period.eq_of_map_phrase_eq ha.negative hb.negative
    rw [← filter_negative_phrases, h, filter_negative_phrases]

/-- Reachable schedules have the same text just when they have the same positive and the same
negative periods in the same order. -/
theorem text_eq_iff (ha : a.Reachable) (hb : b.Reachable) :
    a.text = b.text ↔ a.positive = b.positive ∧ a.negative = b.negative := by
  constructor
  · intro htext
    have hwritten : Expression.Written b.phrases a.text := htext ▸ hb.isStored.written_text
    have hphrases := ha.isStored.written_text.unique hwritten
    exact ha.isStored.eq_of_phrases_eq hb.isStored hphrases
  · intro hperiods
    obtain ⟨hpositive, hnegative⟩ := hperiods
    rw [text, text, hpositive, hnegative]

/-- Weekdays and working hours read from two texts and from one: their intersection is printed
like the schedule that is read for both. -/
theorem text_eq_iff_working_hours :
    ∃ days hours both : Schedule,
      parse "wd {mon-fri}".toList = .ok days ∧
      parse "hr {9am-12 1pm-6pm}, not yr {2020-2021}".toList = .ok hours ∧
      parse "hr {13-18 9-12} wd {1-5}, except years {2021 2020}".toList = .ok both ∧
      (both.Reachable ∧ (days.intersection hours).Reachable) ∧
      both.text = "wd \x7b 1-5 \x7d hr \x7b 9-12 13-18 \x7d, not yr \x7b 2020-2021 \x7d".toList ∧
      both.text = (days.intersection hours).text ∧
      (both.text = (days.intersection hours).text ↔
        both.positive = (days.intersection hours).positive ∧
          both.negative = (days.intersection hours).negative) := by
  have hdays : parse "wd {mon-fri}".toList =
      .ok ⟨[.ofConstraints [(.weekDay, [⟨1, 5, .inclusive⟩])]], []⟩ := by
    decide +kernel
  have hhours : parse "hr {9am-12 1pm-6pm}, not yr {2020-2021}".toList = .ok
      ⟨[.ofConstraints [(.hour, [⟨9, 12, .exclusive⟩, ⟨13, 18, .exclusive⟩])]],
        [.ofConstraints [(.year, [⟨2020, 2021, .inclusive⟩])]]⟩ := by
    decide +kernel
  have hboth : parse "hr {13-18 9-12} wd {1-5}, except years {2021 2020}".toList = .ok
      ⟨[.ofConstraints [(.hour, [⟨9, 12, .exclusive⟩, ⟨13, 18, .exclusive⟩]),
        (.weekDay, [⟨1, 5, .inclusive⟩])]],
        [.ofConstraints [(.year, [⟨2020, 2021, .inclusive⟩])]]⟩ := by
    decide +kernel
  have hreachable := Reachable.parsed hboth
  have hmet := (Reachable.parsed hdays).intersection (Reachable.parsed hhours)
  exact ⟨_, _, _, hdays, hhours, hboth, ⟨hreachable, hmet⟩, by decide +kernel, by decide +kernel,
    text_eq_iff hreachable hmet⟩

end Schedule

end Timetable
