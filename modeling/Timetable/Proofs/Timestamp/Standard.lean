import Timetable.Proofs.Timestamp.Patterns
import Timetable.Proofs.Timestamp.Zoned
import Timetable.Timestamp.Standard

/-!
# The standard parsers are as documented

A text is read by a pattern as what the pieces of the pattern take, so the findings are those
of an instant if the text shows this instant. The date and the time are made up from findings
that all have to show them.
-/

namespace Timetable.Timestamp

open Text Reader

namespace Pattern

variable {pattern : Pattern} {instant : Instant} {second : Nat} {t : Text}

/-! ## Findings -/

theorem findings?_cons (piece : Piece) (pattern : Pattern) (t : Text) :
    findings? (piece :: pattern) t =
      (piece.read t).bind fun read => (findings? pattern read.2).map ((piece, read.1) :: ·) := by
  apply Option.ext
  intro found
  simp only [findings?, Option.map_eq_some_iff, whole_eq_some_iff, List.mapM_cons,
    bind_eq_some_iff, pure_eq_some_iff, Option.bind_eq_some_iff, Prod.exists]
  constructor
  · rintro ⟨_, ⟨n, rest, hpiece, ns, _, hpattern, rfl, rfl⟩, rfl⟩
    exact ⟨n, rest, hpiece, _, ⟨ns, hpattern, rfl⟩, rfl⟩
  · rintro ⟨n, rest, hpiece, _, ⟨ns, hpattern, rfl⟩, rfl⟩
    exact ⟨n :: ns, ⟨n, rest, hpiece, ns, [], hpattern, rfl, rfl⟩, rfl⟩

theorem findings?_nil : findings? [] t = if t = [] then some [] else none := by
  cases t <;> rfl

/-- The findings are those of an instant if the text shows this instant. -/
theorem findings?_eq_some_iff :
    pattern.findings? t = some (pattern.findings instant second) ↔
      pattern.Shows instant second t := by
  induction pattern generalizing t with
  | nil =>
      rw [findings?_nil]
      constructor
      · intro h
        split at h
        · next hnil =>
            subst hnil
            exact .nil
        · cases h
      · rintro ⟨⟩
        rfl
  | cons piece pattern ih =>
      rw [findings?_cons, Option.bind_eq_some_iff]
      simp only [Option.map_eq_some_iff, Prod.exists, Piece.read_eq_some_iff]
      constructor
      · rintro ⟨n, rest, hpiece, found, hfound, heq⟩
        obtain ⟨hhead, rfl⟩ := List.cons.inj heq
        obtain ⟨-, rfl⟩ := Prod.mk.inj hhead
        exact .cons hpiece (ih.mp hfound)
      · rintro (_ | ⟨hpiece, hrest⟩)
        exact ⟨_, _, hpiece, _, ih.mpr hrest, rfl⟩

theorem lookup_findings (piece : Piece) :
    (pattern.findings instant second).lookup piece =
      if piece ∈ pattern then some (piece.shown instant second) else none := by
  induction pattern with
  | nil => rfl
  | cons other pattern ih =>
      have hcons : findings (other :: pattern) instant second =
          (other, other.shown instant second) :: findings pattern instant second := rfl
      rw [hcons, List.lookup_cons, ih]
      by_cases heq : piece = other
      · subst heq
        rw [beq_self_eq_true, if_pos List.mem_cons_self]
      · have hmem : piece ∈ other :: pattern ↔ piece ∈ pattern :=
          List.mem_cons.trans (or_iff_right heq)
        rw [beq_eq_false_iff_ne.mpr heq]
        simp only [hmem]

theorem lookup_findings_of_mem {piece : Piece} (h : piece ∈ pattern) :
    (pattern.findings instant second).lookup piece = some (piece.shown instant second) := by
  rw [lookup_findings, if_pos h]

theorem lookup_findings_of_notMem {piece : Piece} (h : piece ∉ pattern) :
    (pattern.findings instant second).lookup piece = none := by
  rw [lookup_findings, if_neg h]

/-- The second is found as it is written. -/
theorem second_findings (h : .number .second ∈ pattern) :
    (pattern.findings instant second).second = second := by
  rw [Findings.second, lookup_findings_of_mem h]
  rfl

theorem second_findings_of_notMem (h : .number .second ∉ pattern) :
    (pattern.findings instant second).second = 0 := by
  rw [Findings.second, lookup_findings_of_notMem h]
  rfl

theorem date?_findings (hdate : pattern.TellsDate) (hyear : IsSupportedYear instant.date.year) :
    (pattern.findings instant second).date? = some instant.date := by
  obtain ⟨hyearMem, hmonthMem, hdayMem⟩ := hdate
  have hmonthLow := instant.date.isDate.1
  have hmonth : ((pattern.findings instant second).lookup (.number .month) <|>
      ((pattern.findings instant second).lookup (.name .month)).map (· + 1)) =
        some (instant.date.month : Int) := by
    by_cases hnumber : .number .month ∈ pattern
    · rw [lookup_findings_of_mem hnumber]
      rfl
    · have hname := hmonthMem.resolve_left hnumber
      rw [lookup_findings_of_notMem hnumber, lookup_findings_of_mem hname]
      change some (((instant.date.month - 1 : Nat) : Int) + 1) = _
      congr 1
      omega
  rw [Findings.date?, lookup_findings_of_mem hyearMem, hmonth, lookup_findings_of_mem hdayMem]
  refine Option.bind_eq_some_iff.mpr ⟨_, rfl, Option.bind_eq_some_iff.mpr ⟨_, rfl, ?_⟩⟩
  refine Option.bind_eq_some_iff.mpr ⟨_, rfl, ?_⟩
  refine Option.bind_eq_some_iff.mpr ⟨(), (Option.guard_eq_some' ()).mpr hyear, ?_⟩
  exact Date.of?_eq_some_iff.mpr ⟨rfl, rfl, rfl⟩

theorem isSupportedYear_of_date? {found : Findings} {date : Date} (h : found.date? = some date) :
    IsSupportedYear date.year := by
  obtain ⟨year, -, h⟩ := Option.bind_eq_some_iff.mp h
  obtain ⟨month, -, h⟩ := Option.bind_eq_some_iff.mp h
  obtain ⟨day, -, h⟩ := Option.bind_eq_some_iff.mp h
  obtain ⟨_, hyear, h⟩ := Option.bind_eq_some_iff.mp h
  rw [(Date.of?_eq_some_iff.mp h).1]
  exact (Option.guard_eq_some' _).mp hyear

theorem hour?_findings (htime : pattern.TellsTime) :
    (pattern.findings instant second).hour? = some (instant.time.hour : Int) := by
  by_cases hnumber : .number .hour ∈ pattern
  · rw [Findings.hour?, lookup_findings_of_mem hnumber]
    rfl
  · obtain ⟨hclock, hhalf⟩ := htime.1.resolve_left hnumber
    rw [Findings.hour?, lookup_findings_of_notMem hnumber, lookup_findings_of_mem hclock,
      lookup_findings_of_mem hhalf]
    change some ((dialHour instant.time.hour : Int) % 12 +
      12 * ((instant.time.hour / 12 : Nat) : Int)) = _
    have hdial := dialHour_mod instant.time.hour
    congr 1
    omega

theorem time?_findings (htime : pattern.TellsTime)
    (hsecond : countedSecond (pattern.findings instant second).second = instant.time.second) :
    (pattern.findings instant second).time? = some instant.time := by
  rw [Findings.time?, hour?_findings htime, lookup_findings_of_mem htime.2, hsecond]
  refine Option.bind_eq_some_iff.mpr ⟨_, rfl, Option.bind_eq_some_iff.mpr ⟨_, rfl, ?_⟩⟩
  exact TimeOfDay.of?_eq_some_iff.mpr ⟨rfl, rfl, rfl⟩

theorem countedSecond_of_time? {found : Findings} {time : TimeOfDay}
    (h : found.time? = some time) : countedSecond found.second = time.second := by
  obtain ⟨hour, -, h⟩ := Option.bind_eq_some_iff.mp h
  obtain ⟨minute, -, h⟩ := Option.bind_eq_some_iff.mp h
  exact (TimeOfDay.of?_eq_some_iff.mp h).2.2.symm

/-! ## Dates and times by a pattern -/

theorem instant?_eq_some_iff (hdate : pattern.TellsDate) (htime : pattern.TellsTime) :
    pattern.instant? t = some instant ↔
      IsSupportedYear instant.date.year ∧ pattern.ShowsInstant instant t := by
  simp only [Pattern.instant?, Option.bind_eq_bind, Option.bind_eq_some_iff,
    Option.guard_eq_some', Option.pure_def, Option.some_inj, exists_const]
  constructor
  · rintro ⟨found, hfound, date, hdate, time, htime, hall, rfl⟩
    have hshows := findings?_eq_some_iff.mp (hfound.trans (congrArg some hall))
    refine ⟨isSupportedYear_of_date? hdate, found.second, countedSecond_of_time? htime, ?_, hshows⟩
    by_cases hmem : .number .second ∈ pattern
    · exact Or.inl hmem
    · right
      rw [hall]
      exact second_findings_of_notMem hmem
  · rintro ⟨hyear, second, hsecond, hmem, hshows⟩
    have hfound : (pattern.findings instant second).second = second := by
      rcases hmem with hmem | rfl
      · exact second_findings hmem
      · by_cases hmem : .number .second ∈ pattern
        · exact second_findings hmem
        · exact second_findings_of_notMem hmem
    refine ⟨_, findings?_eq_some_iff.mpr hshows, instant.date, date?_findings hdate hyear,
      instant.time, time?_findings htime ?_, ?_, rfl⟩
    · rw [hfound, hsecond]
    · rw [hfound]

theorem date?_eq_some_iff (hdate : pattern.TellsDate) {date : Date} :
    pattern.date? t = some date ↔
      IsSupportedYear date.year ∧ pattern.Shows date.midnight 0 t := by
  simp only [Pattern.date?, Option.bind_eq_bind, Option.bind_eq_some_iff, Option.guard_eq_some',
    Option.pure_def, Option.some_inj, exists_const]
  constructor
  · rintro ⟨found, hfound, date, hdate, hall, rfl⟩
    exact ⟨isSupportedYear_of_date? hdate,
      findings?_eq_some_iff.mp (hfound.trans (congrArg some hall))⟩
  · rintro ⟨hyear, hshows⟩
    exact ⟨_, findings?_eq_some_iff.mpr hshows, date, date?_findings hdate hyear, rfl, rfl⟩

end Pattern

/-- The standard parsers do what is documented. -/
theorem Parsers.standard_documented : Parsers.standard.Documented where
  internet_iff _ _ := ⟨Internet.shows_of_zoned?, Internet.zoned?_of_shows⟩
  mail_of_shows _ _ := Mail.zoned?_of_shows
  opens_of_mail _ _ := Mail.opens_of_zoned?
  instant_iff format pattern hformat hdate htime instant t := by
    change ((Pattern.ofFormat? format).bind fun pattern => pattern.instant? t) = _ ↔ _
    rw [hformat]
    exact Pattern.instant?_eq_some_iff hdate htime
  date_iff format pattern hformat hdate _ date t := by
    change ((Pattern.ofFormat? format).bind fun pattern => pattern.date? t) = _ ↔ _
    rw [hformat]
    exact Pattern.date?_eq_some_iff hdate

end Timetable.Timestamp
