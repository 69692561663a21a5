import Timetable.Proofs.Machine.Clauses
import Timetable.Proofs.Schedule.Reachable

/-!
# Schedules with machine numbers

The algebra of schedules expands spans into values and gathers values into spans
again, and printing asks which spans have a single value. Each of these needs the
first value past a span or past a run of values. Stored periods have values of the
domains only, so these numbers have 16 bits, and every operation on reachable
schedules yields what it yields with numbers of any size.
-/

namespace Timetable

namespace Machine

/-! ## Intersecting periods -/

/-- The distinct values of each constrained scale. -/
def explode (p : Period) : Checked Meeting :=
  p.constraints.mapM fun constraint => do
    let lists ← constraint.2.mapM values
    pure (constraint.1, ascending compare lists.flatten)

/-- The values left to each scale where two exploded periods meet: the common ones, or those
of the only period that constrains the scale. -/
def meet (left right : Meeting) : Meeting :=
  (left.map fun entry =>
    match right.lookup entry.1 with
    | some others => (entry.1, entry.2.filter others.contains)
    | none => entry) ++
  right.filter fun entry => (left.lookup entry.1).isNone

/-- Constrains a period scale by scale, up to a scale without values. -/
def build (period : Period) : Meeting → Checked (Option Period)
  | [] => .ok (some period)
  | entry :: rest =>
    if entry.2.isEmpty then .ok none
    else do
      let spans ← coalesce entry.1 entry.2
      build (period.constrain entry.1 spans) rest

/-- Intersects every left period with every right one. -/
def intersect (lefts rights : List Period) : Checked (List Period) := do
  let lefts ← lefts.mapM explode
  let rights ← rights.mapM explode
  let rows ← lefts.mapM fun left => rights.mapM fun right => build .unconstrained (meet left right)
  pure (rows.flatten.filterMap id)

/-! ## The algebra -/

def union (a b : Schedule) : Checked Schedule := do
  let negative ← intersect a.negative b.negative
  pure
    ⟨if a.positive.isEmpty || b.positive.isEmpty then [] else a.positive ++ b.positive, negative⟩

def intersection (a b : Schedule) : Checked Schedule := do
  let positive ←
    if a.positive.isEmpty then pure b.positive
    else if b.positive.isEmpty then pure a.positive
    else do
      let periods ← intersect a.positive b.positive
      pure (if periods.isEmpty then [Period.never] else periods)
  pure ⟨positive, a.negative ++ b.negative⟩

/-- Complements need no arithmetic. -/
def complement (a : Schedule) : Checked Schedule := pure ⟨a.negative, a.positive⟩

def isExclusive (a b : Schedule) : Checked Bool :=
  if a.positive.isEmpty || b.positive.isEmpty then pure false
  else do
    let periods ← intersect a.positive b.positive
    pure periods.isEmpty

/-! ## Printing -/

/-- Whether a span has exactly one value. -/
def isSingle (span : Span) : Checked Bool :=
  match span.boundary with
  | .inclusive => pure (span.start == span.stop)
  | .exclusive => do
    let next ← add16 span.start 1
    pure (next == span.stop)

def spanText (span : Span) : Checked Text := do
  let single ← isSingle span
  pure
    (if single then Text.ofNat span.start
    else Text.ofNat span.start ++ '-' :: Text.ofNat span.stop)

def constraintText (constraint : Scale × List Span) : Checked Text := do
  let spans ← constraint.2.mapM spanText
  pure (constraint.1.code ++ " \x7b ".toList ++ " ".toList.intercalate spans ++ " \x7d".toList)

def periodText (p : Period) : Checked Text := do
  let constraints ← p.constraints.mapM constraintText
  pure (" ".toList.intercalate constraints)

def text (schedule : Schedule) : Checked Text := do
  let negative ← schedule.negative.mapM periodText
  let positive ← schedule.positive.mapM periodText
  let parts :=
    [", ".toList.intercalate positive,
      ", ".toList.intercalate (negative.map fun t => "not ".toList ++ t)]
  pure (", ".toList.intercalate (parts.filter fun part => !part.isEmpty))

/-! ## Bounds -/

/-- The first value past each span of the period has 16 bits. -/
def Expandable (p : Period) : Prop :=
  ∀ constraint ∈ p.constraints, ∀ span ∈ constraint.2, span.limit ≤ 65535

/-- No span of the period is empty, and the first value past each of them has 16 bits. -/
def Fits (p : Period) : Prop :=
  ∀ constraint ∈ p.constraints, ∀ span ∈ constraint.2,
    span.start < span.limit ∧ span.limit ≤ 65535

variable {p left right : Period}

theorem Fits.expandable (h : Fits p) : Expandable p := fun constraint hconstraint span hspan =>
  (h constraint hconstraint span hspan).2

/-- Stored periods only have values of the domains. -/
theorem fits_of_isStored (h : p.IsStored) : Fits p := by
  intro constraint hconstraint span hspan
  have hgathered := h.gathered constraint.1 constraint.2
    ((Period.mem_constraints p constraint.1 constraint.2).mp hconstraint)
  have hlimit := hgathered.limit_le hspan
  have hhighest := highest_le constraint.1
  exact ⟨hgathered.start_lt_limit hspan, by omega⟩

/-! ## Exploded periods -/

/-- The distinct values of each constrained scale, with numbers of any size. -/
def exploded (p : Period) : Meeting :=
  p.constraints.map fun constraint => (constraint.1, Span.distinctValues constraint.2)

theorem explode_eq (h : Expandable p) : explode p = .ok (exploded p) := by
  apply mapM_eq_ok
  intro constraint hconstraint
  have hlists := mapM_eq_ok fun span hspan => values_eq (h constraint hconstraint span hspan)
  rw [hlists, ok_bind, ← List.flatMap_def, ascending_values]
  rfl

/-- What is listed scale by scale is found under its scale. -/
theorem lookup_filterMap {α : Type} (value? : Scale → Option α) (scales : List Scale)
    (scale : Scale) :
    (scales.filterMap fun s => (value? s).map fun a => (s, a)).lookup scale =
      if scale ∈ scales then value? scale else none := by
  induction scales with
  | nil => rfl
  | cons s rest ih =>
      by_cases hs : scale = s
      · subst hs
        cases hentry : value? scale with
        | none =>
            rw [List.filterMap_cons_none (by rw [hentry]; rfl), ih]
            split <;> simp [hentry]
        | some a =>
            rw [List.filterMap_cons_some (by rw [hentry]; rfl), List.lookup_cons_self]
            simp
      · have hrest : (scale ∈ s :: rest) = (scale ∈ rest) := by simp [hs]
        simp only [hrest, ← ih]
        cases hentry : value? s with
        | none => rw [List.filterMap_cons_none (by rw [hentry]; rfl)]
        | some a =>
            rw [List.filterMap_cons_some (by rw [hentry]; rfl), List.lookup_cons,
              beq_eq_false_iff_ne.mpr hs]

/-- Scale by scale the values are those of the spans. -/
theorem exploded_eq_filterMap (p : Period) :
    exploded p =
      Scale.all.filterMap fun s => ((p.spans? s).map Span.distinctValues).map fun a => (s, a) := by
  rw [exploded, Period.constraints, List.map_filterMap]
  simp only [Option.map_map]
  rfl

theorem lookup_exploded (p : Period) (scale : Scale) :
    (exploded p).lookup scale = (p.spans? scale).map Span.distinctValues := by
  rw [exploded_eq_filterMap, lookup_filterMap, if_pos (Scale.mem_all scale)]

/-- Exploded periods meet in the values that the meeting of the periods has. -/
theorem meet_exploded (left right : Period) :
    meet (exploded left) (exploded right) = Meeting.ofPeriods left right := by
  unfold meet Meeting.ofPeriods Meeting.scaleOrder
  simp only [lookup_exploded]
  rw [exploded_eq_filterMap, exploded_eq_filterMap, List.filterMap_append, List.filterMap_filter,
    List.filterMap_filter, List.map_filterMap, List.filter_filterMap]
  apply congrArg₂
  · apply congrArg (List.filterMap · Scale.all)
    funext scale
    unfold Meeting.valuesAt? Period.constrains
    cases hleft : left.spans? scale with
    | none => rfl
    | some l =>
        cases hright : right.spans? scale with
        | none => simp [hright]
        | some r =>
            have hcommon : (Span.distinctValues l).filter (Span.distinctValues r).contains =
                (Span.distinctValues l).filter (Span.anyCovers r) := by
              apply List.filter_congr
              intro v _
              rw [Bool.eq_iff_iff, List.contains_iff_mem, Span.mem_distinctValues]
            simp [hright, hcommon]
  · apply congrArg (List.filterMap · Scale.all)
    funext scale
    unfold Meeting.valuesAt? Period.constrains
    cases hleft : left.spans? scale with
    | none => cases hright : right.spans? scale <;> simp [hleft]
    | some l => cases hright : right.spans? scale <;> simp [hleft]

/-! ## Intersections -/

/-- The values ascend, and each of them has a successor of 16 bits. -/
structure Gatherable (values : List Nat) : Prop where
  ascends : values.Pairwise (· < ·)
  fits : ∀ v ∈ values, v < 65535

theorem Gatherable.coalesce_eq {scale : Scale} {values : List Nat} (h : Gatherable values) :
    coalesce scale values = .ok (Span.ofAscending scale.boundary values) := by
  have hself : ascending compare values = values := by
    apply List.Pairwise.eq_of_mem_iff (Span.pairwise_ascending values) h.ascends
    intro v
    exact mem_ascending v values
  rw [Machine.coalesce_eq scale h.fits, Span.ofValues, hself]

/-- A meeting of expandable periods only leaves values that can be gathered. -/
theorem gatherable_of_mem_ofPeriods (hleft : Expandable left) (hright : Expandable right)
    {entry : Scale × List Nat} (h : entry ∈ Meeting.ofPeriods left right) :
    Gatherable entry.2 := by
  have hvalues := (Meeting.mem_ofPeriods left right entry.1 entry.2).mp h
  have hfits : ∀ p : Period, Expandable p → ∀ spans v, p.spans? entry.1 = some spans →
      Span.anyCovers spans v = true → v < 65535 := by
    intro p hp spans v hspans hv
    obtain ⟨span, hspan, hcovers⟩ := (Span.anyCovers_iff spans v).mp hv
    have hlimit := hp _ ((Period.mem_constraints p entry.1 spans).mpr hspans) span hspan
    have hlt := ((Span.covers_iff span v).mp hcovers).2
    omega
  constructor
  · exact Meeting.pairwise_valuesAt hvalues
  · intro v hv
    rcases Meeting.exists_covers_of_mem_valuesAt hvalues hv with
      ⟨spans, hspans, hcovers⟩ | ⟨spans, hspans, hcovers⟩
    · exact hfits left hleft spans v hspans hcovers
    · exact hfits right hright spans v hspans hcovers

/-- Building goes through the scales of a meeting and constrains the period by each of them. -/
theorem build_eq {meeting : Meeting} (h : ∀ entry ∈ meeting, Gatherable entry.2)
    (period : Period) :
    build period meeting =
      .ok (if meeting.isSatisfiable then
        some ((meeting.map fun entry =>
          (entry.1, Span.ofAscending entry.1.boundary entry.2)).foldl
            (fun period c => period.constrain c.1 c.2) period)
      else none) := by
  induction meeting generalizing period with
  | nil => rfl
  | cons entry rest ih =>
      obtain ⟨hentry, hrest⟩ := List.forall_mem_cons.mp h
      rw [build, Meeting.isSatisfiable, List.all_cons]
      cases hempty : entry.2.isEmpty with
      | true => rfl
      | false =>
          rw [hentry.coalesce_eq, ok_bind, ih hrest]
          rfl

/-- Intersecting expandable periods never faults, and yields their intersection. -/
theorem intersect_eq {lefts rights : List Period} (hlefts : ∀ p ∈ lefts, Expandable p)
    (hrights : ∀ p ∈ rights, Expandable p) :
    intersect lefts rights = .ok (Period.intersect lefts rights) := by
  have hrow : ∀ l ∈ lefts.map exploded,
      ((rights.map exploded).mapM fun r => build .unconstrained (meet l r)) =
        .ok ((rights.map exploded).map fun r => (meet l r).period?) := by
    intro l hl
    obtain ⟨left, hleft, rfl⟩ := List.mem_map.mp hl
    apply mapM_eq_ok
    intro r hr
    obtain ⟨right, hright, rfl⟩ := List.mem_map.mp hr
    rw [meet_exploded]
    apply build_eq
    intro entry hentry
    exact gatherable_of_mem_ofPeriods (hlefts left hleft) (hrights right hright) hentry
  have hrows : (lefts.map exploded).map (fun l => (rights.map exploded).map fun r =>
      (meet l r).period?) =
        lefts.map fun l => (rights.map (Meeting.ofPeriods l)).map Meeting.period? := by
    simp only [List.map_map, Function.comp_def, meet_exploded]
  have hall : (lefts.map fun l => (rights.map (Meeting.ofPeriods l)).map Meeting.period?).flatten =
      (Meeting.all lefts rights).map Meeting.period? := by
    rw [Meeting.all, List.flatMap_def, List.map_flatten, List.map_map]
    rfl
  rw [intersect, mapM_eq_ok fun p hp => explode_eq (hlefts p hp), ok_bind,
    mapM_eq_ok fun p hp => explode_eq (hrights p hp), ok_bind, mapM_eq_ok hrow, ok_bind, hrows,
    hall, List.filterMap_map]
  rfl

/-! ## Operations on stored schedules -/

variable {a b : Schedule}

theorem intersect_eq_of_isStored {lefts rights : List Period} (hlefts : ∀ p ∈ lefts, p.IsStored)
    (hrights : ∀ p ∈ rights, p.IsStored) :
    intersect lefts rights = .ok (Period.intersect lefts rights) :=
  intersect_eq (fun p hp => (fits_of_isStored (hlefts p hp)).expandable)
    fun p hp => (fits_of_isStored (hrights p hp)).expandable

theorem union_eq (ha : a.IsStored) (hb : b.IsStored) : union a b = .ok (a.union b) := by
  rw [union, intersect_eq_of_isStored ha.negative hb.negative]
  rfl

theorem intersection_eq (ha : a.IsStored) (hb : b.IsStored) :
    intersection a b = .ok (a.intersection b) := by
  rw [intersection, intersect_eq_of_isStored ha.positive hb.positive,
    Schedule.intersection, Schedule.intersectPositive]
  split
  · rfl
  · split <;> rfl

theorem isExclusive_eq (ha : a.IsStored) (hb : b.IsStored) :
    isExclusive a b = .ok (a.isExclusive b) := by
  rw [isExclusive, intersect_eq_of_isStored ha.positive hb.positive,
    Schedule.isExclusive]
  cases a.positive.isEmpty with
  | true => rfl
  | false => cases b.positive.isEmpty <;> rfl

/-! ## Texts of stored schedules -/

theorem isSingle_eq {span : Span} (h : span.start < 65535) :
    isSingle span = .ok span.isSingle := by
  unfold isSingle Span.isSingle Span.limit
  cases hboundary : span.boundary with
  | inclusive =>
      have hsucc : (span.start + 1 == span.stop + 1) = (span.start == span.stop) := by
        rw [Bool.eq_iff_iff, beq_iff_eq, beq_iff_eq]
        exact Nat.succ_inj
      rw [hsucc]
      rfl
  | exclusive =>
      rw [add16_of_le h]
      rfl

theorem spanText_eq {span : Span} (h : span.start < 65535) : spanText span = .ok span.text := by
  rw [spanText, isSingle_eq h]
  rfl

theorem periodText_eq (h : Fits p) : periodText p = .ok p.text := by
  have hconstraints : p.constraints.mapM constraintText =
      .ok (p.constraints.map Period.constraintText) := by
    apply mapM_eq_ok
    intro constraint hconstraint
    have hspans := mapM_eq_ok fun span hspan =>
      have hfits := h constraint hconstraint span hspan
      spanText_eq (Nat.lt_of_lt_of_le hfits.1 hfits.2)
    rw [constraintText, hspans]
    rfl
  rw [periodText, hconstraints]
  rfl

theorem text_eq (ha : a.IsStored) : text a = .ok a.text := by
  have hnegative := mapM_eq_ok fun p hp => periodText_eq (fits_of_isStored (ha.negative p hp))
  have hpositive := mapM_eq_ok fun p hp => periodText_eq (fits_of_isStored (ha.positive p hp))
  have hnegated : (a.negative.map Period.text).map (fun t => "not ".toList ++ t) =
      a.negative.map Schedule.negatedText := List.map_map
  simp only [text, hnegative, hpositive, ok_bind, hnegated]
  rfl

/-! ## Texts and schedules -/

/-- With numbers of 16 bits and texts cut at byte offsets, parsing any text and every operation
on reachable schedules run without a fault: they yield or refuse what they do with numbers of
any size. -/
theorem runs_faultless :
    (∀ t, parse t = faultless (Schedule.parse t) ∧ ∀ fault, parse t ≠ .error (.fault fault)) ∧
      ∀ a b : Schedule, a.Reachable → b.Reachable →
        union a b = .ok (a.union b) ∧ intersection a b = .ok (a.intersection b) ∧
          complement a = .ok a.complement ∧ isExclusive a b = .ok (a.isExclusive b) ∧
            text a = .ok a.text := by
  constructor
  · intro t
    rw [parse_eq t]
    exact ⟨rfl, faultless_ne_fault (Schedule.parse t)⟩
  · intro a b ha hb
    exact ⟨union_eq ha.isStored hb.isStored, intersection_eq ha.isStored hb.isStored, rfl,
      isExclusive_eq ha.isStored hb.isStored, text_eq ha.isStored⟩

/-- Hours that reach behind the end of the day meet a complement of minutes that reach behind
the end of the hour. -/
theorem runs_faultless_late_hours :
    ∃ hours minutes : Schedule,
      Schedule.parse "hr {22-24 24}, not yr {9998}".toList = .ok hours ∧
      Schedule.parse "! min {60}, hr {11pm-0}".toList = .ok minutes ∧
      hours.positive = [.ofConstraints [(.hour, [⟨22, 25, .exclusive⟩])]] ∧
      parse "hr {22-24 24}, not yr {9998}".toList = .ok hours ∧
      hours.Reachable ∧ minutes.complement.Reachable ∧
      union hours minutes.complement = .ok (hours.union minutes.complement) ∧
      intersection hours minutes.complement = .ok (hours.intersection minutes.complement) ∧
      complement hours = .ok hours.complement ∧
      isExclusive hours minutes.complement = .ok (hours.isExclusive minutes.complement) ∧
      text hours = .ok hours.text := by
  have hhours : Schedule.parse "hr {22-24 24}, not yr {9998}".toList = .ok
      ⟨[.ofConstraints [(.hour, [⟨22, 25, .exclusive⟩])]],
        [.ofConstraints [(.year, [⟨9998, 9998, .inclusive⟩])]]⟩ := by
    decide +kernel
  have hminutes : Schedule.parse "! min {60}, hr {11pm-0}".toList = .ok
      ⟨[.ofConstraints [(.hour, [⟨23, 24, .exclusive⟩])]],
        [.ofConstraints [(.minute, [⟨60, 61, .exclusive⟩])]]⟩ := by
    decide +kernel
  have hh := Schedule.Reachable.parsed hhours
  have hm := (Schedule.Reachable.parsed hminutes).complement
  have hparse := (runs_faultless.1 "hr {22-24 24}, not yr {9998}".toList).1
  rw [hhours] at hparse
  exact ⟨_, _, hhours, hminutes, rfl, hparse, hh, hm, runs_faultless.2 _ _ hh hm⟩

end Machine

end Timetable
