import Timetable.Proofs.Expression.Reports
import Timetable.Proofs.Period.Extensionality
import Timetable.Proofs.Period.Product

/-!
# What intersecting reports

Intersecting two lists goes through the pairs of a left period and a right one. A pair
reports its scales in turn, those of the left period first, each with the number of
values that both periods allow it, up to a scale for which there are none. So a pair that
meets reports its conjunction, scale by scale, and one that is dropped may have reported
some scales before. The numbers of both lists and of the result come last.
-/

namespace Timetable

open Timetable.Pointwise (Concat)

variable {ε : Type} {left right p : Period}

namespace Meeting

/-- The numbers of values of the scales in turn, up to a scale without values. -/
def counts (meeting : Meeting) : List (Scale × ℕ) :=
  (meeting.takeWhile fun entry => !entry.2.isEmpty).map fun entry => (entry.1, entry.2.length)

/-- The scales that one of two periods constrains: in order those of the left one, and then in
order those of the right one alone. -/
def scales (left right : Period) : List Scale :=
  Scale.all.filter left.constrains ++
    Scale.all.filter fun scale => !left.constrains scale && right.constrains scale

/-- What a pair of periods reports of some scales: how many values both allow each of them, up
to a scale for which there are none. -/
inductive Reports (left right : Period) : List Scale → List (Scale × ℕ) → Prop
  | done : Reports left right [] []
  | apart {scale scales} (hnone : ¬∃ v, left.Allows scale v ∧ right.Allows scale v) :
      Reports left right (scale :: scales) []
  | shared {scale scales counts} (hsome : ∃ v, left.Allows scale v ∧ right.Allows scale v)
      (tail : Reports left right scales counts) :
      Reports left right (scale :: scales)
        ((scale, {v | left.Allows scale v ∧ right.Allows scale v}.ncard) :: counts)

end Meeting

/-- The report of a conjunction whose left part is given: every scale that it constrains with
the number of values that it allows, first in order those that the left part constrains as
well, and then in order the others. -/
noncomputable def Period.tally (left p : Period) : List (Scale × ℕ) :=
  (p.constraints.filter (fun c => left.constrains c.1) ++
    p.constraints.filter fun c => !left.constrains c.1).map
      fun c => (c.1, {v | Span.anyCovers c.2 v = true}.ncard)

/-- The reports of the conjunctions of the pairs that meet, in the order of these. -/
inductive Period.Tallies : List (Period × Period) → List Period → List (Scale × ℕ) → Prop
  | nil : Tallies [] [] []
  | meeting {left right p pairs periods tallies} (hmeets : left.Meets right)
      (hp : IsConjunction left right p) (tail : Tallies pairs periods tallies) :
      Tallies ((left, right) :: pairs) (p :: periods) (left.tally p ++ tallies)
  | apart {left right pairs periods tallies} (hapart : ¬left.Meets right)
      (tail : Tallies pairs periods tallies) : Tallies ((left, right) :: pairs) periods tallies

/-! ## Building periods -/

namespace Meeting

theorem counts_cons_of_isEmpty {scale : Scale} {values : List Nat} (h : values.isEmpty = true)
    (rest : Meeting) : counts ((scale, values) :: rest) = [] := by
  simp [counts, h]

theorem counts_cons_of_not_isEmpty {scale : Scale} {values : List Nat}
    (h : values.isEmpty = false) (rest : Meeting) :
    counts ((scale, values) :: rest) = (scale, values.length) :: counts rest := by
  simp [counts, h]

/-- Building goes on constraining a period, unless a scale is left without values. -/
theorem outcome_build (period : Period) (meeting : Meeting) :
    (build period meeting : Logged ε (Option Period)).outcome =
      .ok (if meeting.isSatisfiable then
        some ((meeting.map fun entry =>
          (entry.1, Span.ofAscending entry.1.boundary entry.2)).foldl
            (fun period c => period.constrain c.1 c.2) period)
      else none) := by
  induction meeting generalizing period with
  | nil => rfl
  | cons entry rest ih =>
      obtain ⟨scale, values⟩ := entry
      rw [build, isSatisfiable, List.all_cons]
      cases hempty : values.isEmpty with
      | true => rfl
      | false =>
          rw [if_neg Bool.false_ne_true, Logged.outcome_bind, Logged.outcome_report]
          exact ih _

/-- Building reports the scales in turn. -/
theorem events_build (period : Period) (meeting : Meeting) :
    (build period meeting : Logged ε (Option Period)).events =
      (counts meeting).map fun c => .gathered c.1 c.2 := by
  induction meeting generalizing period with
  | nil => rfl
  | cons entry rest ih =>
      obtain ⟨scale, values⟩ := entry
      rw [build]
      cases hempty : values.isEmpty with
      | true =>
          rw [counts_cons_of_isEmpty hempty]
          rfl
      | false =>
          rw [if_neg Bool.false_ne_true, Logged.events_bind (Logged.outcome_report _), ih,
            counts_cons_of_not_isEmpty hempty]
          rfl

end Meeting

/-- Intersecting builds the periods of all pairs, and the last of its events is the only one
that reports the result. -/
theorem Logged.intersect_eq (lefts rights : List Period) :
    (Logged.intersect lefts rights : Logged ε (List Period)) =
      ⟨((lefts ×ˢ rights).flatMap fun pair => Meeting.counts (Meeting.ofPeriods pair.1 pair.2)).map
          (fun c => .gathered c.1 c.2) ++
        [.intersected lefts.length rights.length (Period.intersect lefts rights).length],
      .ok (Period.intersect lefts rights)⟩ := by
  have hrun : (Logged.traverse (Meeting.build .unconstrained) (Meeting.all lefts rights) :
      Logged ε (List (Option Period))).outcome =
        .ok ((Meeting.all lefts rights).map Meeting.period?) := by
    rw [Logged.outcome_traverse_eq_ok_iff]
    apply List.forall₂_map_right_iff.mpr
    apply List.forall₂_same.mpr
    intro meeting _
    exact Meeting.outcome_build .unconstrained meeting
  have hevents : ((Meeting.all lefts rights).flatMap fun meeting =>
      (Meeting.build .unconstrained meeting : Logged ε (Option Period)).events) =
        ((lefts ×ˢ rights).flatMap fun pair => Meeting.counts (Meeting.ofPeriods pair.1 pair.2)).map
          fun c => .gathered c.1 c.2 := by
    simp only [Meeting.events_build, Meeting.all_eq_map, List.flatMap_map, List.map_flatMap]
  rw [Logged.intersect, Logged.bind_of_ok hrun, Logged.events_traverse hrun, hevents,
    List.filterMap_map]
  rfl

/-! ## Reports of pairs -/

namespace Meeting

/-- A meeting lists the scales that either period constrains. -/
theorem ofPeriods_eq_filterMap (left right : Period) :
    ofPeriods left right = (scales left right).filterMap fun scale =>
      (valuesAt? left right scale).map fun values => (scale, values) := by
  have hnone : ∀ scale, left.constrains scale = false → right.constrains scale = false →
      valuesAt? left right scale = none := by
    intro scale hleft hright
    rw [Period.constrains, Option.isSome_eq_false_iff, Option.isNone_iff_eq_none] at hleft hright
    rw [valuesAt?, hleft, hright]
  rw [ofPeriods, scaleOrder, scales, List.filterMap_append, List.filterMap_append]
  apply congrArg
  rw [List.filterMap_filter, List.filterMap_filter]
  apply congrArg (List.filterMap · Scale.all)
  funext scale
  cases hleft : left.constrains scale with
  | true => rfl
  | false =>
      cases hright : right.constrains scale with
      | true => rfl
      | false => simp [hnone scale hleft hright]

theorem exists_valuesAt_of_mem_scales {scale : Scale} (h : scale ∈ scales left right) :
    ∃ values, valuesAt? left right scale = some values := by
  rw [exists_valuesAt_iff, ← Period.constrains_iff, ← Period.constrains_iff]
  rcases List.mem_append.mp h with h | h
  · exact Or.inl (List.mem_filter.mp h).2
  · exact Or.inr (Bool.and_eq_true_iff.mp (List.mem_filter.mp h).2).2

/-- The values that are left to a scale are as many as both periods allow it. -/
theorem ncard_allows {scale : Scale} {values : List Nat}
    (h : valuesAt? left right scale = some values) :
    {v | left.Allows scale v ∧ right.Allows scale v}.ncard = values.length :=
  ncard_of_nodup (pairwise_valuesAt h).nodup fun v => (mem_valuesAt h v).symm

/-- A pair of periods reports its scales in turn. -/
theorem reports_counts (left right : Period) :
    Reports left right (scales left right) (counts (ofPeriods left right)) := by
  have hall : ∀ scale ∈ scales left right, ∃ values, valuesAt? left right scale = some values :=
    fun _ => exists_valuesAt_of_mem_scales
  rw [ofPeriods_eq_filterMap]
  generalize scales left right = order at hall ⊢
  induction order with
  | nil => exact .done
  | cons scale rest ih =>
      obtain ⟨⟨values, hvalues⟩, hrest⟩ := List.forall_mem_cons.mp hall
      rw [List.filterMap_cons_some (by rw [hvalues]; rfl)]
      have hmem := mem_valuesAt hvalues
      cases values with
      | nil =>
          rw [counts_cons_of_isEmpty rfl]
          apply Reports.apart
          rintro ⟨v, hv⟩
          exact absurd ((hmem v).mpr hv) List.not_mem_nil
      | cons first others =>
          rw [counts_cons_of_not_isEmpty rfl, ← ncard_allows hvalues]
          exact Reports.shared ⟨first, (hmem first).mp List.mem_cons_self⟩ (ih hrest)

/-- A meeting that has a period counts the values of all its scales. -/
theorem counts_of_period? (h : (ofPeriods left right).period? = some p) :
    counts (ofPeriods left right) =
      (ofPeriods left right).map fun entry => (entry.1, entry.2.length) := by
  have hall : ∀ entry ∈ ofPeriods left right, (!entry.2.isEmpty) = true := by
    intro entry hentry
    have hvalues := (mem_ofPeriods left right entry.1 entry.2).mp hentry
    simpa using valuesAt_ne_nil h hvalues
  rw [counts, List.takeWhile_eq_self_iff.mpr hall]

/-- The constraints of the period of a meeting on some of the scales have the values that the
meeting leaves to these. -/
theorem map_constraints_of_period? (h : (ofPeriods left right).period? = some p)
    (select : Scale → Bool) :
    ((p.constraints.filter fun c => select c.1).map
        fun c => (c.1, {v | Span.anyCovers c.2 v = true}.ncard)) =
      ((Scale.all.filter select).filterMap fun scale =>
        (valuesAt? left right scale).map fun values => (scale, values)).map
          fun entry => (entry.1, entry.2.length) := by
  rw [Period.constraints, List.filter_filterMap, List.map_filterMap, List.filterMap_filter,
    List.map_filterMap]
  apply congrArg (List.filterMap · Scale.all)
  funext scale
  rw [spans?_of_period? h scale]
  cases hvalues : valuesAt? left right scale with
  | none => simp
  | some values =>
      have hcount : {v | Span.anyCovers (Span.ofAscending scale.boundary values) v = true}.ncard =
          values.length :=
        ncard_of_nodup (pairwise_valuesAt hvalues).nodup
          (Span.anyCovers_ofAscending scale.boundary values)
      cases hselect : select scale with
      | true => simp [hselect, hcount]
      | false => simp [hselect]

/-- A pair that has a conjunction reports it. -/
theorem counts_eq_tally (h : (ofPeriods left right).period? = some p) :
    counts (ofPeriods left right) = left.tally p := by
  rw [counts_of_period? h, Period.tally, List.map_append,
    map_constraints_of_period? h left.constrains,
    map_constraints_of_period? h fun scale => !left.constrains scale, ← List.map_append,
    ← List.filterMap_append]
  rfl

end Meeting

/-! ## Reports of lists -/

/-- Pairs of periods that fit the fields are gone through one by one: one that meets reports its
conjunction, and whatever one that does not has reported is passed over. -/
theorem Period.exists_tallies {pairs : List (Period × Period)}
    (h : ∀ pair ∈ pairs, pair.1.FitsFields ∧ pair.2.FitsFields) :
    ∃ tallies,
      Tallies pairs (pairs.filterMap fun pair => (Meeting.ofPeriods pair.1 pair.2).period?)
        tallies ∧
      tallies.Sublist (pairs.flatMap fun pair =>
        Meeting.counts (Meeting.ofPeriods pair.1 pair.2)) := by
  induction pairs with
  | nil => exact ⟨[], .nil, .slnil⟩
  | cons pair rest ih =>
      obtain ⟨left, right⟩ := pair
      obtain ⟨⟨hleft, hright⟩, hrest⟩ := List.forall_mem_cons.mp h
      obtain ⟨tallies, htallies, hsub⟩ := ih hrest
      rw [List.flatMap_cons]
      cases hperiod : (Meeting.ofPeriods left right).period? with
      | none =>
          simp only [List.filterMap_cons, hperiod]
          have hapart := not_meets_of_period?_eq_none hleft hright hperiod
          exact ⟨tallies, .apart hapart htallies, List.sublist_append_of_sublist_right hsub⟩
      | some p =>
          simp only [List.filterMap_cons, hperiod, Meeting.counts_eq_tally hperiod]
          have hmeets := (Meeting.exists_period?_iff hleft hright).mp ⟨p, hperiod⟩
          have hconj := Meeting.isConjunction_of_period? hperiod
          exact ⟨_, .meeting hmeets hconj htallies, hsub.append_left _⟩

/-- What is reported tells what was done. An expression that is read reports, group by group in
the order of the text, each interval with the numbers of its ends, at once whether it wraps around,
and then how many values the group covers. Intersecting lists of periods reports the pairs one by
one, each of them scale by scale up to one without common values, and with these the conjunctions
of all pairs that meet; the lengths of the lists and of the result come once, at the end. -/
theorem events_faithful :
    (∀ t periods, (Expression.read t).outcome = .ok periods →
      ∃ phrases, Expression.Written phrases t ∧
        Concat Expression.Phrase.Reports phrases (Expression.read t).events) ∧
    ∀ lefts rights : List Period, (∀ p ∈ lefts, p.FitsFields) → (∀ p ∈ rights, p.FitsFields) →
      (Logged.intersect lefts rights : Logged Error (List Period)).outcome =
        .ok (Period.intersect lefts rights) ∧
      ∃ counts tallies,
        (Logged.intersect lefts rights : Logged Error (List Period)).events =
          counts.map (fun c => Event.gathered c.1 c.2) ++
            [.intersected lefts.length rights.length (Period.intersect lefts rights).length] ∧
        Concat (fun pair => Meeting.Reports pair.1 pair.2 (Meeting.scales pair.1 pair.2))
          (lefts ×ˢ rights) counts ∧
        Period.Tallies (lefts ×ˢ rights) (Period.intersect lefts rights) tallies ∧
        tallies.Sublist counts := by
  constructor
  · intro t periods hread
    obtain ⟨phrases, hphrases⟩ := Expression.exists_written_of_read hread
    exact ⟨phrases, hphrases, Expression.reports_of_read hphrases hread⟩
  · intro lefts rights hlefts hrights
    have hpairs : ∀ pair ∈ lefts ×ˢ rights, pair.1.FitsFields ∧ pair.2.FitsFields := by
      intro pair hpair
      obtain ⟨hl, hr⟩ := List.mem_product.mp hpair
      exact ⟨hlefts _ hl, hrights _ hr⟩
    obtain ⟨tallies, htallies, hsub⟩ := Period.exists_tallies hpairs
    rw [← Period.intersect_eq_filterMap] at htallies
    rw [Logged.intersect_eq]
    refine ⟨rfl, _, tallies, rfl, ?_, htallies, hsub⟩
    apply Pointwise.concat_of_forall₂
    apply List.forall₂_same.mpr
    exact fun pair _ => Meeting.reports_counts pair.1 pair.2

/-- Intervals that wrap around, a group that a later one replaces, and a pair that is dropped at
its hours after its months have been reported. -/
theorem events_faithful_replaced_hours :
    let t := "hr {22-2 5} hours{0}, not wd {fri-mon 1 - 3}".toList
    let mornings : Period := .ofConstraints
      [(.hour, [⟨6, 10, .exclusive⟩, ⟨20, 8, .inclusive⟩]), (.month, [⟨3, 9, .inclusive⟩])]
    let summers : Period := .ofConstraints
      [(.weekDay, [⟨6, 6, .inclusive⟩, ⟨0, 0, .inclusive⟩]), (.month, [⟨6, 8, .inclusive⟩])]
    let evenings : Period := .ofConstraints
      [(.year, [⟨2020, 2021, .inclusive⟩]), (.month, [⟨1, 12, .inclusive⟩]),
        (.hour, [⟨18, 22, .exclusive⟩])]
    let shared : Period := .ofConstraints
      [(.month, [⟨6, 8, .inclusive⟩]), (.hour, [⟨6, 10, .exclusive⟩]),
        (.weekDay, [⟨0, 0, .inclusive⟩, ⟨6, 6, .inclusive⟩])]
    (∃ periods, (Expression.read t).outcome = .ok periods ∧
      ∃ phrases, Expression.Written phrases t ∧
        Concat Expression.Phrase.Reports phrases
          [.interval .hour 22 2, .wrapped .hour 22 2, .gathered .hour 5, .gathered .hour 1,
            .interval .weekDay 5 1, .wrapped .weekDay 5 1, .interval .weekDay 1 3,
            .gathered .weekDay 6]) ∧
    ((∀ p ∈ [mornings], p.FitsFields) ∧ ∀ p ∈ [summers, evenings], p.FitsFields) ∧
    ∃ counts tallies,
      [.gathered .month 3, .gathered .hour 4, .gathered .weekDay 2, .gathered .month 7,
        .intersected 1 2 1] =
          counts.map (fun c => Event.gathered c.1 c.2) ++ [.intersected 1 2 1] ∧
      Concat (fun pair => Meeting.Reports pair.1 pair.2 (Meeting.scales pair.1 pair.2))
        [(mornings, summers), (mornings, evenings)] counts ∧
      Period.Tallies [(mornings, summers), (mornings, evenings)] [shared] tallies ∧
      tallies.Sublist counts := by
  intro t mornings summers evenings shared
  have hread : (Expression.read t).outcome = .ok
      ([.ofConstraints
          [(.hour, [⟨0, 2, .exclusive⟩, ⟨5, 6, .exclusive⟩, ⟨22, 24, .exclusive⟩]),
            (.hour, [⟨24, 25, .exclusive⟩])]],
        [.ofConstraints [(.weekDay, [⟨0, 3, .inclusive⟩, ⟨5, 6, .inclusive⟩])]]) := by
    decide +kernel
  have hevents : (Expression.read t).events =
      [.interval .hour 22 2, .wrapped .hour 22 2, .gathered .hour 5, .gathered .hour 1,
        .interval .weekDay 5 1, .wrapped .weekDay 5 1, .interval .weekDay 1 3,
        .gathered .weekDay 6] := by
    decide +kernel
  have hlefts : ∀ p ∈ [mornings], p.FitsFields := by decide
  have hrights : ∀ p ∈ [summers, evenings], p.FitsFields := by decide
  have hresult : Period.intersect [mornings] [summers, evenings] = [shared] := by decide +kernel
  have hlog : (Logged.intersect [mornings] [summers, evenings] :
      Logged Error (List Period)).events =
        [.gathered .month 3, .gathered .hour 4, .gathered .weekDay 2, .gathered .month 7,
          .intersected 1 2 1] := by
    decide +kernel
  obtain ⟨phrases, hphrases, hreports⟩ := events_faithful.1 t _ hread
  rw [hevents] at hreports
  obtain ⟨-, counts, tallies, hcounts, hpairs, htallies, hsub⟩ :=
    events_faithful.2 [mornings] [summers, evenings] hlefts hrights
  rw [hlog, hresult] at hcounts
  rw [hresult] at htallies
  exact ⟨⟨_, hread, phrases, hphrases, hreports⟩, ⟨hlefts, hrights⟩, counts, tallies, hcounts,
    hpairs, htallies, hsub⟩

end Timetable
