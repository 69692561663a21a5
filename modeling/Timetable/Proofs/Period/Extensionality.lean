import Mathlib.Logic.Function.Basic
import Timetable.Proofs.Period.Witness
import Timetable.Proofs.Schedule.Reachable
import Timetable.Proofs.Span.Coalesced

/-!
# Periods that accept the same

An assignment that a period accepts may be changed on one scale alone, and is then
accepted as long as that scale is allowed its new value. So the values that a period
allows each scale show in what it accepts, if it accepts anything. Read periods and
their intersections are known by these values: the greatest value of sixteen bits lies
past every domain, so it is allowed to unconstrained scales only, and the spans of the
others are coalesced.
-/

namespace Timetable

namespace Period

/-- The periods that texts are read for, and those in which lists of such periods intersect. -/
inductive Reachable : Period → Prop
  | clause {t result} (h : (Expression.readClause t).outcome = .ok result) : Reachable result.1
  | expression {t periods p} (h : (Expression.read t).outcome = .ok periods)
      (hp : p ∈ periods.1 ++ periods.2) : Reachable p
  | intersected {lefts rights p} (hlefts : ∀ l ∈ lefts, Reachable l)
      (hrights : ∀ r ∈ rights, Reachable r) (hp : p ∈ intersect lefts rights) : Reachable p

/-- The period does not keep the scale from having the value. -/
def Allows (p : Period) (scale : Scale) (value : Nat) : Prop :=
  ∀ spans, p.spans? scale = some spans → Span.anyCovers spans value = true

variable {p q : Period} {scale : Scale} {x : Assignment}

theorem Reachable.isStored (h : p.Reachable) : p.IsStored := by
  induction h with
  | clause h =>
      obtain ⟨phrase, hwritten⟩ := Expression.exists_written_of_readClause h
      exact isStored_of_yields hwritten ((Expression.readClause_eq_ok_iff hwritten _).mp h)
  | expression h hp =>
      obtain ⟨phrases, hphrases⟩ := Expression.exists_written_of_read h
      obtain ⟨results, hresults, rfl⟩ := (Expression.read_eq_ok_iff hphrases _).mp h
      have hall := isStored_of_mem_results hphrases hresults
      rcases List.mem_append.mp hp with hp | hp
      · exact hall _ (Schedule.mem_parted_fst.mp hp)
      · exact hall _ (Schedule.mem_parted_snd.mp hp)
  | intersected _ _ hp hlefts hrights => exact isStored_of_mem_intersect hlefts hrights _ hp

theorem accepts_iff_allows (p : Period) (x : Assignment) :
    p.accepts x = true ↔ ∀ scale, p.Allows scale (x scale) := accepts_iff p x

theorem allows_iff_of_spans? {spans : List Span} (h : p.spans? scale = some spans)
    (value : Nat) : p.Allows scale value ↔ Span.anyCovers spans value = true := by
  constructor
  · intro hallows
    exact hallows spans h
  · intro hcovers others hothers
    obtain rfl := Option.some.inj (h.symm.trans hothers)
    exact hcovers

/-- An accepted assignment stays so when a scale gets another value that it is allowed. -/
theorem accepts_update_iff (hx : p.accepts x = true) (scale : Scale) (value : Nat) :
    p.accepts (Function.update x scale value) = true ↔ p.Allows scale value := by
  rw [accepts_iff_allows]
  constructor
  · intro h
    have hscale := h scale
    rwa [Function.update_self] at hscale
  · intro hvalue other
    by_cases hother : other = scale
    · subst hother
      rwa [Function.update_self]
    · rw [Function.update_of_ne hother]
      exact (accepts_iff_allows p x).mp hx other

theorem fitsFields_update (hx : Assignment.FitsFields x) (scale : Scale) {value : Nat}
    (hvalue : value ≤ 65535) : Assignment.FitsFields (Function.update x scale value) := by
  intro other
  by_cases hother : other = scale
  · subst hother
    rwa [Function.update_self]
  · rw [Function.update_of_ne hother]
    exact hx other

/-! ## Stored periods -/

/-- Values that a stored period allows a constrained scale lie in the domain, so they fall short
of 65535. -/
theorem IsStored.lt_of_allows (hp : p.IsStored) {spans : List Span}
    (hspans : p.spans? scale = some spans) {value : Nat} (hvalue : p.Allows scale value) :
    value < 65535 := by
  have hcovers := (allows_iff_of_spans? hspans value).mp hvalue
  have hhigh := ((hp.gathered scale spans hspans).stores hcovers).2.1
  have hhighest := Machine.highest_le scale
  omega

/-- The value past every domain is left to unconstrained scales only. -/
theorem IsStored.spans?_eq_none_iff (hp : p.IsStored) (scale : Scale) :
    p.spans? scale = none ↔ p.Allows scale 65535 := by
  constructor
  · intro hnone spans hspans
    rw [hnone] at hspans
    cases hspans
  · intro hallows
    apply Option.eq_none_iff_forall_ne_some.mpr
    intro spans hspans
    exact Nat.lt_irrefl _ (hp.lt_of_allows hspans hallows)

/-- Stored periods constrain a scale alike if they allow it the same values. -/
theorem IsStored.spans?_eq (hp : p.IsStored) (hq : q.IsStored)
    (h : ∀ value ≤ 65535, p.Allows scale value ↔ q.Allows scale value) :
    p.spans? scale = q.spans? scale := by
  have hnone : p.spans? scale = none ↔ q.spans? scale = none := by
    rw [hp.spans?_eq_none_iff, hq.spans?_eq_none_iff, h 65535 (Nat.le_refl _)]
  cases hspans : p.spans? scale with
  | none => exact (hnone.mp hspans).symm
  | some spans =>
      cases hothers : q.spans? scale with
      | none =>
          rw [hnone.mpr hothers] at hspans
          cases hspans
      | some others =>
          have hsame : ∀ v, Span.anyCovers others v = Span.anyCovers spans v := by
            intro v
            rw [Bool.eq_iff_iff, ← allows_iff_of_spans? hspans, ← allows_iff_of_spans? hothers]
            constructor
            · intro hv
              have hlt := hq.lt_of_allows hothers hv
              exact (h v (Nat.le_of_lt hlt)).mpr hv
            · intro hv
              have hlt := hp.lt_of_allows hspans hv
              exact (h v (Nat.le_of_lt hlt)).mp hv
          rw [(hp.isCoalesced hspans).eq_of_same (hq.isCoalesced hothers) hsame]

/-- A stored period allows a scale some value unless it constrains it by no spans. -/
theorem IsStored.exists_allows (hp : p.IsStored) (hne : p.spans? scale ≠ some []) :
    ∃ value ≤ 65535, p.Allows scale value := by
  cases hspans : p.spans? scale with
  | none => exact ⟨65535, Nat.le_refl _, (hp.spans?_eq_none_iff scale).mp hspans⟩
  | some spans =>
      cases spans with
      | nil => exact absurd hspans hne
      | cons span rest =>
          have hpos := (hp.isCoalesced hspans).start_lt_limit span List.mem_cons_self
          have hcovers : Span.anyCovers (span :: rest) span.start = true :=
            (Span.anyCovers_iff _ _).mpr ⟨span, List.mem_cons_self,
              (Span.covers_iff span _).mpr ⟨Nat.le_refl _, hpos⟩⟩
          have hallows := (allows_iff_of_spans? hspans span.start).mpr hcovers
          exact ⟨span.start, Nat.le_of_lt (hp.lt_of_allows hspans hallows), hallows⟩

/-- A stored period accepts something as long as no scale is constrained by no spans. -/
theorem IsStored.isSatisfiable_iff (hp : p.IsStored) :
    p.isSatisfiable = true ↔ ∃ x, Assignment.FitsFields x ∧ p.accepts x = true := by
  simp only [isSatisfiable, List.all_eq_true, bne_iff_ne, Scale.mem_all, true_imp_iff]
  constructor
  · intro hsat
    choose x hfits hallows using fun scale => hp.exists_allows (hsat scale)
    exact ⟨x, hfits, (accepts_iff_allows p x).mpr hallows⟩
  · intro hx scale hspans
    obtain ⟨x, -, hx⟩ := hx
    exact Bool.noConfusion ((accepts_iff_allows p x).mp hx scale [] hspans)

/-- Stored periods that accept the same are the same, if they accept anything. -/
theorem IsStored.eq_of_accepts (hp : p.IsStored) (hq : q.IsStored)
    (hfits : Assignment.FitsFields x) (hx : p.accepts x = true)
    (h : ∀ y, Assignment.FitsFields y → p.accepts y = q.accepts y) : p = q := by
  have hqx : q.accepts x = true := (h x hfits).symm.trans hx
  ext1
  funext scale
  apply hp.spans?_eq hq
  intro value hvalue
  rw [← accepts_update_iff hx, ← accepts_update_iff hqx, h _ (fitsFields_update hfits scale hvalue)]

/-- Read periods and their intersections are the same just when they accept the same
assignments of the fields' size, if one of them is satisfiable; and a period is satisfiable
when it accepts such an assignment. -/
theorem eq_iff_accepts_same (hp : p.Reachable) (hq : q.Reachable) :
    (p.isSatisfiable = true ∨ q.isSatisfiable = true →
      (p = q ↔ ∀ x, Assignment.FitsFields x → p.accepts x = q.accepts x)) ∧
    (p.isSatisfiable = true ↔ ∃ x, Assignment.FitsFields x ∧ p.accepts x = true) := by
  refine ⟨?_, hp.isStored.isSatisfiable_iff⟩
  intro hsat
  constructor
  · intro hsame x _
    rw [hsame]
  · intro hsame
    rcases hsat with hsat | hsat
    · obtain ⟨x, hfits, hx⟩ := hp.isStored.isSatisfiable_iff.mp hsat
      exact hp.isStored.eq_of_accepts hq.isStored hfits hx hsame
    · obtain ⟨x, hfits, hx⟩ := hq.isStored.isSatisfiable_iff.mp hsat
      have hswap : ∀ y, Assignment.FitsFields y → q.accepts y = p.accepts y := fun y hy =>
        (hsame y hy).symm
      exact (hq.isStored.eq_of_accepts hp.isStored hfits hx hswap).symm

/-- Nights of weekdays, where the names in one text meet hours up to midnight and on from there
in another; they are told from the weekdays by what they accept. -/
theorem nights_eq_iff_accepts_same :
    let hours : Period := .ofConstraints [(.hour, [⟨0, 2, .exclusive⟩, ⟨22, 24, .exclusive⟩])]
    let days : Period := .ofConstraints [(.weekDay, [⟨1, 5, .inclusive⟩])]
    let nights : Period := .ofConstraints [(.weekDay, [⟨1, 5, .inclusive⟩]),
      (.hour, [⟨0, 2, .exclusive⟩, ⟨22, 24, .exclusive⟩])]
    (Expression.readClause "wd {mon-fri}".toList).outcome = .ok (days, false) ∧
    (Expression.read "hr {10pm-24 24-2}".toList).outcome = .ok ([hours], []) ∧
    intersect [days] [hours] = [nights] ∧ (nights.Reachable ∧ days.Reachable) ∧
    nights.isSatisfiable = true ∧
    (nights = days ↔ ∀ x, Assignment.FitsFields x → nights.accepts x = days.accepts x) ∧
    (nights.isSatisfiable = true ↔ ∃ x, Assignment.FitsFields x ∧ nights.accepts x = true) := by
  intro hours days nights
  have hdays : (Expression.readClause "wd {mon-fri}".toList).outcome = .ok (days, false) := by
    decide +kernel
  have hhours : (Expression.read "hr {10pm-24 24-2}".toList).outcome = .ok ([hours], []) := by
    decide +kernel
  have hnights : intersect [days] [hours] = [nights] := by decide
  have hsat : nights.isSatisfiable = true := by decide
  have hdays_reachable : days.Reachable := Reachable.clause hdays
  have hhours_reachable : hours.Reachable := Reachable.expression hhours (by simp)
  have hmem : nights ∈ intersect [days] [hours] := by
    rw [hnights]
    exact List.mem_singleton_self nights
  have hnights_reachable : nights.Reachable :=
    Reachable.intersected (List.forall_mem_singleton.mpr hdays_reachable)
      (List.forall_mem_singleton.mpr hhours_reachable) hmem
  obtain ⟨heq, hiff⟩ := eq_iff_accepts_same hnights_reachable hdays_reachable
  exact ⟨hdays, hhours, hnights, ⟨hnights_reachable, hdays_reachable⟩, hsat,
    heq (Or.inl hsat), hiff⟩

end Period

end Timetable
