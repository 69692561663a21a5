import Timetable.Proofs.Schedule.Parsing
import Timetable.Proofs.Span.Gathering

/-!
# Reachable schedules

A schedule is reachable when it is parsed, the empty one, or the union, the
intersection or the complement of reachable ones. All its periods are stored
ones: they constrain some scale, and each scale they constrain has spans that
are gathered from values of its domain. Such spans are in canonical form.
-/

namespace Timetable

/-- The period constrains some scale, and always by gathered spans. -/
structure Period.IsStored (p : Period) : Prop where
  constrained : p.isUnconstrained = false
  gathered : ∀ scale spans, p.spans? scale = some spans → Span.IsGathered scale spans

/-- The schedules that texts and the algebra of schedules give rise to. -/
inductive Schedule.Reachable : Schedule → Prop
  | parsed {t schedule} (h : parse t = .ok schedule) : Reachable schedule
  | always : Reachable always
  | union {a b} (ha : Reachable a) (hb : Reachable b) : Reachable (a.union b)
  | intersection {a b} (ha : Reachable a) (hb : Reachable b) : Reachable (a.intersection b)
  | complement {a} (ha : Reachable a) : Reachable a.complement

/-- Written items add up to gathered spans. -/
theorem Expression.Gathered.isGathered {scale : Scale} {items : List (Expression.Item Text)}
    {spans : List Span} (h : Expression.Gathered scale items spans) :
    Span.IsGathered scale spans := by
  obtain @⟨values, hvalues, hyear⟩ := h
  apply Span.IsGathered.intro (Span.pairwise_distinctValues _)
  intro v hv
  have hcovers := (Span.mem_distinctValues _ v).mp hv
  obtain ⟨span, hspan, hspanCovers⟩ := (Span.anyCovers_iff _ v).mp hcovers
  obtain ⟨value, hvalue, hspan⟩ := List.mem_flatMap.mp hspan
  obtain ⟨item, -, hdenotes⟩ := Pointwise.exists_left hvalues hvalue
  obtain ⟨hlow, hhigh⟩ := hdenotes.span_mem_domain hspan
  obtain ⟨hstart, hlimit⟩ := (Span.covers_iff span v).mp hspanCovers
  refine ⟨Nat.le_trans hlow hstart, by omega, ?_⟩
  rintro hscale rfl
  rw [hyear hscale] at hcovers
  cases hcovers

namespace Period

theorem isStored_of_yields {phrase : Expression.Phrase} {t : Text} {result : Period × Bool}
    (h : phrase.Written t) (hyields : phrase.Yields result) : result.1.IsStored := by
  refine ⟨Schedule.isUnconstrained_of_yields h hyields, fun scale spans hspans => ?_⟩
  obtain ⟨hconstraints⟩ := hyields
  obtain ⟨before, after, hsplit, -⟩ :=
    (spans?_ofConstraints_eq_some_iff_last _ scale spans).mp hspans
  rw [hsplit] at hconstraints
  obtain ⟨-, listing, -, -, -, hlisting, -⟩ := Pointwise.exists_append_cons_left hconstraints
  obtain ⟨hscale, hgathered⟩ := hlisting
  obtain rfl : scale = listing.scale := hscale
  exact hgathered.isGathered

/-- The periods of the phrases that a text is written as are stored ones. -/
theorem isStored_of_mem_results {phrases : List Expression.Phrase} {t : Text}
    {results : List (Period × Bool)} (h : Expression.Written phrases t)
    (hresults : List.Forall₂ Expression.Phrase.Yields phrases results) :
    ∀ result ∈ results, result.1.IsStored := by
  intro result hresult
  obtain ⟨phrase, hphrase, hyields⟩ := Pointwise.exists_left hresults hresult
  obtain ⟨_, hwritten⟩ := h.exists_written hphrase
  exact isStored_of_yields hwritten hyields

theorem IsStored.isCoalesced {p : Period} (h : p.IsStored) {scale : Scale} {spans : List Span}
    (hspans : p.spans? scale = some spans) : Span.IsCoalesced scale.boundary spans :=
  (h.gathered scale spans hspans).isCoalesced

theorem isStored_never : never.IsStored := by
  refine ⟨by decide, fun scale spans hspans => ?_⟩
  rw [never, spans?_constrain, spans?_unconstrained, Option.ite_none_right_eq_some] at hspans
  obtain ⟨-, hnil⟩ := hspans
  obtain rfl := Option.some.inj hnil
  exact Span.isGathered_nil scale

/-- The values that a meeting of stored periods leaves to a scale are stored by it. -/
theorem stores_of_mem_valuesAt {left right : Period} (hleft : left.IsStored)
    (hright : right.IsStored) {scale : Scale} {values : List Nat}
    (h : Meeting.valuesAt? left right scale = some values) : ∀ v ∈ values, scale.Stores v := by
  intro v hv
  rcases Meeting.exists_covers_of_mem_valuesAt h hv with
    ⟨spans, hspans, hcovers⟩ | ⟨spans, hspans, hcovers⟩
  · exact (hleft.gathered scale spans hspans).stores hcovers
  · exact (hright.gathered scale spans hspans).stores hcovers

/-- The period of a meeting of stored periods is a stored one. -/
theorem isStored_of_meeting {left right p : Period} (hleft : left.IsStored)
    (hright : right.IsStored) (h : (Meeting.ofPeriods left right).period? = some p) :
    p.IsStored := by
  constructor
  · exact Meeting.isUnconstrained_of_period? h hleft.constrained
  · intro scale spans hspans
    rw [Meeting.spans?_of_period? h scale] at hspans
    obtain ⟨values, hvalues, rfl⟩ := Option.map_eq_some_iff.mp hspans
    apply Span.IsGathered.intro (Meeting.pairwise_valuesAt hvalues)
    exact stores_of_mem_valuesAt hleft hright hvalues

theorem isStored_of_mem_intersect {lefts rights : List Period}
    (hlefts : ∀ p ∈ lefts, p.IsStored) (hrights : ∀ p ∈ rights, p.IsStored) :
    ∀ p ∈ intersect lefts rights, p.IsStored := by
  intro p hp
  obtain ⟨l, hl, r, hr, hmeeting⟩ := mem_intersect.mp hp
  exact isStored_of_meeting (hlefts l hl) (hrights r hr) hmeeting

end Period

namespace Schedule

/-- Both lists hold stored periods only. -/
structure IsStored (schedule : Schedule) : Prop where
  positive : ∀ p ∈ schedule.positive, p.IsStored
  negative : ∀ p ∈ schedule.negative, p.IsStored

theorem isStored_of_parse {t : Text} {schedule : Schedule} (h : parse t = .ok schedule) :
    schedule.IsStored := by
  obtain ⟨phrases, hphrases⟩ := exists_written_of_parse h
  obtain ⟨results, hresults, rfl⟩ := (parse_eq_ok_iff hphrases schedule).mp h
  have hall := Period.isStored_of_mem_results hphrases hresults
  constructor
  · intro p hp
    exact hall _ (mem_parted_fst.mp hp)
  · intro p hp
    exact hall _ (mem_parted_snd.mp hp)

theorem IsStored.union {a b : Schedule} (ha : a.IsStored) (hb : b.IsStored) :
    (a.union b).IsStored := by
  constructor
  · intro p hp
    obtain ⟨-, -, hp⟩ := (mem_positive_union p a b).mp hp
    exact hp.elim (ha.positive p) (hb.positive p)
  · exact Period.isStored_of_mem_intersect ha.negative hb.negative

theorem IsStored.intersection {a b : Schedule} (ha : a.IsStored) (hb : b.IsStored) :
    (a.intersection b).IsStored := by
  constructor
  · intro p hp
    rcases (mem_intersectPositive p a.positive b.positive).mp hp with
      ⟨-, hp⟩ | ⟨-, hp⟩ | ⟨-, -, hp⟩
    · exact hb.positive p hp
    · exact ha.positive p hp
    · rcases (mem_orNever p _).mp hp with hp | ⟨-, rfl⟩
      · exact Period.isStored_of_mem_intersect ha.positive hb.positive p hp
      · exact Period.isStored_never
  · intro p hp
    exact (List.mem_append.mp hp).elim (ha.negative p) (hb.negative p)

theorem IsStored.complement {a : Schedule} (ha : a.IsStored) : a.complement.IsStored :=
  ⟨ha.negative, ha.positive⟩

/-- Reachable schedules hold stored periods only. -/
theorem Reachable.isStored {schedule : Schedule} (h : schedule.Reachable) :
    schedule.IsStored := by
  induction h with
  | parsed h => exact isStored_of_parse h
  | always =>
      constructor
      · exact fun p hp => absurd hp List.not_mem_nil
      · exact fun p hp => absurd hp List.not_mem_nil
  | union _ _ iha ihb => exact iha.union ihb
  | intersection _ _ iha ihb => exact iha.intersection ihb
  | complement _ iha => exact iha.complement

/-- Every period of a reachable schedule constrains some scale, and each scale that it
constrains by spans in canonical form, or by none. -/
theorem canonical_of_reachable {schedule : Schedule} (h : schedule.Reachable) :
    ∀ p ∈ schedule.positive ++ schedule.negative,
      (∃ scale, p.constrains scale = true) ∧
        ∀ scale spans, p.spans? scale = some spans → Span.IsCanonical scale spans := by
  intro p hp
  have hstored : p.IsStored := by
    rcases List.mem_append.mp hp with hp | hp
    · exact h.isStored.positive p hp
    · exact h.isStored.negative p hp
  constructor
  · obtain ⟨scale, spans, hspans⟩ :=
      (Period.isUnconstrained_eq_false_iff p).mp hstored.constrained
    refine ⟨scale, ?_⟩
    rw [Period.constrains, hspans, Option.isSome_some]
  · intro scale spans hspans
    exact (hstored.gathered scale spans hspans).isCanonical

/-- Nights that wrap around midnight and touch the end of the day, on no common weekday with
the other schedule, so that the placeholder is stored beside negated years. -/
theorem canonical_of_nights :
    ∃ nights days : Schedule,
      parse "wd {fri-mon} hr {10pm-6 24}, not yr {2020-2021 2022}".toList = .ok nights ∧
      parse "wd {tue-thu}".toList = .ok days ∧
      (nights.intersection days).positive = [.never] ∧
      ((nights.union days).complement.intersection (nights.intersection days)).Reachable ∧
      ∀ p ∈ ((nights.union days).complement.intersection (nights.intersection days)).positive ++
          ((nights.union days).complement.intersection (nights.intersection days)).negative,
        (∃ scale, p.constrains scale = true) ∧
          ∀ scale spans, p.spans? scale = some spans → Span.IsCanonical scale spans := by
  have hnights : parse "wd {fri-mon} hr {10pm-6 24}, not yr {2020-2021 2022}".toList = .ok
      ⟨[.ofConstraints [(.weekDay, [⟨0, 1, .inclusive⟩, ⟨5, 6, .inclusive⟩]),
        (.hour, [⟨0, 6, .exclusive⟩, ⟨22, 25, .exclusive⟩])]],
        [.ofConstraints [(.year, [⟨2020, 2022, .inclusive⟩])]]⟩ := by
    decide +kernel
  have hdays : parse "wd {tue-thu}".toList = .ok
      ⟨[.ofConstraints [(.weekDay, [⟨2, 4, .inclusive⟩])]], []⟩ := by
    decide +kernel
  have hn := Reachable.parsed hnights
  have hd := Reachable.parsed hdays
  have hboth := (hn.union hd).complement.intersection (hn.intersection hd)
  exact ⟨_, _, hnights, hdays, by decide +kernel, hboth, canonical_of_reachable hboth⟩

end Schedule

end Timetable
