import Timetable.Proofs.Timestamp.Formats
import Timetable.Proofs.Timestamp.Standard

/-!
# Reading every rendering of an instant

The forms are tried in a fixed order. On each rendering the ones that come
before its own fail, so an instant of the years 0 to 9999 is read back from all
its renderings: no offset shifts it, and no form takes a text of another one.
-/

namespace Timetable.Timestamp

open Text

namespace Parsers.Documented

open Pattern

variable {parsers : Parsers} (h : parsers.Documented) {instant : Instant} {t : Text}

include h

theorem internet?_eq_none (hshows : ∀ zoned, ¬Internet.Shows zoned t) :
    parsers.internet? t = none :=
  Option.eq_none_iff_forall_ne_some.mpr fun zoned heq => hshows zoned ((h.internet_iff _ _).mp heq)

theorem mail?_eq_none (hopens : ¬Mail.Opens t) : parsers.mail? t = none :=
  Option.eq_none_iff_forall_ne_some.mpr fun zoned heq => hopens (h.opens_of_mail zoned t heq)

theorem instant?_eq_some {format : Text} {pattern : Pattern} (hformat : IsFormat format pattern)
    (hyear : IsSupportedYear instant.date.year) (hshows : pattern.ShowsInstant instant t) :
    parsers.instant? format t = some instant :=
  (h.instant_iff format pattern hformat.1 hformat.2.1 hformat.2.2 instant t).mpr ⟨hyear, hshows⟩

theorem instant?_eq_none {format : Text} {pattern : Pattern} (hformat : IsFormat format pattern)
    (hshows : ∀ instant, ¬pattern.ShowsInstant instant t) : parsers.instant? format t = none := by
  apply Option.eq_none_iff_forall_ne_some.mpr
  intro instant heq
  apply hshows instant
  exact ((h.instant_iff format pattern hformat.1 hformat.2.1 hformat.2.2 instant t).mp heq).2

/-- Formats yield what their patterns find in their order. -/
theorem findSome?_formats {found : Option Instant} {formats : List Text}
    {patterns : List Pattern} (hformats : List.Forall₂ IsFormat formats patterns)
    (hyear : ∀ instant ∈ found, IsSupportedYear instant.date.year)
    (hfinds : Finds t found patterns) :
    formats.findSome? (fun format => parsers.instant? format t) = found := by
  induction hfinds generalizing formats with
  | nil =>
      cases hformats
      rfl
  | here hshows =>
      cases hformats with
      | cons hformat _ => rw [List.findSome?_cons, h.instant?_eq_some hformat (hyear _ rfl) hshows]
  | there hrefuses _ ih =>
      cases hformats with
      | cons hformat hformats =>
          rw [List.findSome?_cons, h.instant?_eq_none hformat hrefuses]
          exact ih hformats hyear

end Parsers.Documented

/-! ## Forms in their order -/

open Pattern

section Renderings

variable {parsers : Parsers} (h : parsers.Documented) {instant : Instant}
  (hyear : instant.date.HasShortYear) {t : Text}

include h

theorem findSome?_internet {offset : Int} (hshows : Internet.Shows ⟨instant, offset⟩ t) :
    (forms parsers).findSome? (fun form => form t) = some instant := by
  have hinternet := (h.internet_iff _ _).mpr hshows
  simp only [forms, List.cons_append, List.findSome?_cons, hinternet, Option.map_some]

theorem findSome?_mail {offset : Int} (hinternet : ∀ zoned, ¬Internet.Shows zoned t)
    (hshows : Mail.Shows ⟨instant, offset⟩ t) :
    (forms parsers).findSome? (fun form => form t) = some instant := by
  have hmail := h.mail_of_shows _ _ hshows
  simp only [forms, List.cons_append, List.findSome?_cons, h.internet?_eq_none hinternet, hmail,
    Option.map_none, Option.map_some]

/-- Where the forms with a zone fail, the formats come next, then a word for the weekday and a
date alone. -/
theorem findSome?_forms {found : Option Instant} (hinternet : ∀ zoned, ¬Internet.Shows zoned t)
    (hmail : ¬Mail.Opens t) (hyear : ∀ instant ∈ found, instant.date.HasShortYear)
    (hfinds : Finds t found Pattern.all) :
    (forms parsers).findSome? (fun form => form t) =
      found.or ((anyWeekDay? parsers t).or
        ((parsers.date? dateFormat t).map Date.midnight)) := by
  have hformats := h.findSome?_formats isFormat_formats
    (fun instant hinstant => isSupportedYear_of_hasShortYear (hyear instant hinstant)) hfinds
  have hrest : ∀ forms : List (Text → Option Instant),
      ((formats.map parsers.instant?) ++ forms).findSome? (fun form => form t) =
        found.or (forms.findSome? fun form => form t) := by
    intro forms
    rw [List.findSome?_append, List.findSome?_map]
    exact congrArg (Option.or · _) hformats
  simp only [forms, List.cons_append, List.nil_append, List.findSome?_cons,
    h.internet?_eq_none hinternet, h.mail?_eq_none hmail, Option.map_none, hrest]
  cases anyWeekDay? parsers t <;> cases parsers.date? dateFormat t <;> rfl

include hyear

theorem findSome?_of_finds (hinternet : ∀ zoned, ¬Internet.Shows zoned t) (hmail : ¬Mail.Opens t)
    (hfinds : Finds t (some instant) Pattern.all) :
    (forms parsers).findSome? (fun form => form t) = some instant := by
  rw [findSome?_forms h hinternet hmail (by rintro _ ⟨⟩; exact hyear) hfinds, Option.some_or]

omit h in
/-- A text that starts with a year in full is not of the mail form. -/
theorem not_opens_dateText (rest : Text) : ¬Mail.Opens (dateText instant.date ++ rest) := by
  apply Mail.not_opens_digits (List.cons_ne_nil _ _)
  intro c hc
  exact isDigit_of_mem_take_dateText hyear rest c (List.take_subset_take_left _ (by decide) hc)

theorem findSome?_dateTime {note : Text} (hnote : IsNote note) :
    (forms parsers).findSome? (fun form =>
      form (dateText instant.date ++ ' ' :: (timeText instant.time ++ note))) = some instant := by
  refine findSome?_of_finds h hyear (fun zoned => ?_) (not_opens_dateText hyear _)
    (finds_dateTime hyear hnote)
  apply Internet.not_shows_of_drop
  rw [timeText, drop_clockText]
  intro c hc
  rw [hnote.head?_eq c hc]
  decide

theorem findSome?_dateHalfDay {note : Text} (hnote : IsNote note) :
    (forms parsers).findSome? (fun form =>
      form (dateText instant.date ++ ' ' :: (halfDayText instant.time ++ note))) =
        some instant := by
  refine findSome?_of_finds h hyear (fun zoned => ?_) (not_opens_dateText hyear _)
    (finds_dateHalfDay hyear hnote)
  apply Internet.not_shows_of_drop
  rw [halfDayText, List.append_assoc, drop_clockText]
  rintro c ⟨⟩
  decide

theorem findSome?_dateMarkTime :
    (forms parsers).findSome? (fun form =>
      form (dateText instant.date ++ 'T' :: timeText instant.time)) = some instant :=
  findSome?_of_finds h hyear (fun _ => Internet.not_shows_of_length_le le_rfl)
    (not_opens_dateText hyear _) (finds_dateMarkTime hyear)

theorem findSome?_dateMinute (hsecond : instant.time.second = 0) :
    (forms parsers).findSome? (fun form => form (dateText instant.date ++
      ' ' :: (twoDigits instant.time.hour ++ ':' :: twoDigits instant.time.minute))) =
        some instant :=
  findSome?_of_finds h hyear (fun _ => Internet.not_shows_of_length_le (show 16 ≤ 19 by decide))
    (not_opens_dateText hyear _) (finds_dateMinute hyear hsecond)

omit h in
/-- A date by itself has no blank, so no word for a weekday stands before it. -/
theorem anyWeekDay?_dateText : anyWeekDay? parsers (dateText instant.date) = none := by
  have hdigits : ∀ c ∈ dateText instant.date, c.isDigit = true ∨ c = '-' := by
    simp only [dateText, List.mem_append, List.mem_cons]
    rintro c (hc | rfl | hc | rfl | hc)
    · exact Or.inl (isDigit_of_mem_fourDigits hyear.toNat_lt hc)
    · exact Or.inr rfl
    · exact Or.inl (isDigit_of_mem_twoDigits instant.date.month_lt hc)
    · exact Or.inr rfl
    · exact Or.inl (isDigit_of_mem_twoDigits instant.date.day_lt hc)
  have hkeep : ∀ c ∈ dateText instant.date, (c != ' ') = true := by
    intro c hc
    rw [bne_iff_ne]
    rintro rfl
    exact absurd (hdigits ' ' hc) (by decide)
  rw [anyWeekDay?, List.dropWhile_eq_nil_iff.mpr hkeep]

theorem findSome?_date (hmidnight : instant.time.seconds = 0) :
    (forms parsers).findSome? (fun form => form (dateText instant.date)) = some instant := by
  have hshows : isoDate.Shows instant.date.midnight 0 (dateText instant.date ++ []) :=
    (shows_isoDate_iff hyear).mpr ⟨rfl, .nil⟩
  rw [List.append_nil] at hshows
  have hdate : parsers.date? dateFormat (dateText instant.date) = some instant.date :=
    (h.date_iff dateFormat isoDate (by decide) (by decide) (by decide) _ _).mpr
      ⟨isSupportedYear_of_hasShortYear hyear, hshows⟩
  have hinstant : instant.date.midnight = instant := by
    unfold TimeOfDay.seconds at hmidnight
    refine Instant.ext rfl (TimeOfDay.ext ?_ ?_ ?_)
    · exact show 0 = instant.time.hour by omega
    · exact show 0 = instant.time.minute by omega
    · exact show 0 = instant.time.second by omega
  have hinternet : ∀ zoned, ¬Internet.Shows zoned (dateText instant.date) := fun _ =>
    Internet.not_shows_of_length_le (show 10 ≤ 19 by decide)
  have hmail : ¬Mail.Opens (dateText instant.date) := by
    simpa using not_opens_dateText hyear []
  rw [findSome?_forms h hinternet hmail (by rintro _ ⟨⟩) (finds_dateText hyear),
    anyWeekDay?_dateText hyear, hdate, Option.map_some, hinstant]
  rfl

theorem anyWeekDay?_printed {word month : Text} (hword : ∀ c ∈ word, c.isAlpha = true)
    (hmonth : Spells Scale.monthNames.short (instant.date.month - 1) month) :
    anyWeekDay? parsers (word ++ ' ' :: printedText instant month) = some instant := by
  have hkeep : ∀ c ∈ word, (c != ' ') = true := by
    intro c hc
    rw [bne_iff_ne]
    rintro rfl
    exact absurd (hword ' ' hc) (by decide)
  have hdrop : (word ++ ' ' :: printedText instant month).dropWhile (· != ' ') =
      ' ' :: printedText instant month := by
    rw [List.dropWhile_append_of_pos hkeep]
    rfl
  have htake : (word ++ ' ' :: printedText instant month).takeWhile (· != ' ') = word := by
    rw [List.takeWhile_append_of_pos hkeep]
    exact List.append_nil word
  have htrim : trimStart (printedText instant month) = printedText instant month :=
    trimStart_eq_self ((startsVisible_of_spells hmonth areNames_months).append _).isBlank_eq
  have hshows := (shows_printed_iff hyear hmonth).mpr ⟨rfl, hasTime_self instant⟩
  have hread : parsers.instant? printedFormat (printedText instant month) = some instant :=
    h.instant?_eq_some (by decide : IsFormat printedFormat printed)
      (isSupportedYear_of_hasShortYear hyear) (showsInstant_of_shows (Or.inl (by decide)) hshows)
  rw [anyWeekDay?, hdrop]
  simp only [htake, List.all_eq_true.mpr hword, if_true, htrim, hread]

theorem findSome?_printed {word month : Text} (hne : word ≠ [])
    (hword : ∀ c ∈ word, c.isAlpha = true)
    (hmonth : Spells Scale.monthNames.short (instant.date.month - 1) month) :
    (forms parsers).findSome? (fun form => form (word ++ ' ' :: printedText instant month)) =
      some instant := by
  have hletter : ∀ c ∈ (word ++ ' ' :: printedText instant month).head?, c.isAlpha = true := by
    rw [List.head?_append_of_ne_nil _ hne]
    exact fun c hc => hword c (List.mem_of_mem_head? hc)
  have hinternet : ∀ zoned, ¬Internet.Shows zoned (word ++ ' ' :: printedText instant month) :=
    fun _ => Internet.not_shows_letter (List.append_ne_nil_of_left_ne_nil hne _) hletter
  have hmail := Mail.not_opens_word hne hword (printedText instant month)
  rcases finds_printed hyear hne hword hmonth with hfinds | hfinds
  · exact findSome?_of_finds h hyear hinternet hmail hfinds
  · rw [findSome?_forms h hinternet hmail (by rintro _ ⟨⟩) hfinds,
      anyWeekDay?_printed h hyear hword hmonth]
    rfl

end Renderings

/-- An instant of the years 0 to 9999 is read from each of its renderings, with any blanks
around it. -/
theorem read_rendering {parsers : Parsers} (h : parsers.Documented) {instant : Instant}
    {before after t : Text} (hyear : 0 ≤ instant.date.year ∧ instant.date.year ≤ 9999)
    (hrenders : Renders instant t) (hbefore : IsGap before) (hafter : IsGap after) :
    read parsers (before ++ (t ++ after)) = .ok instant := by
  have hfound : (forms parsers).findSome? (fun form => form t) = some instant := by
    cases hrenders with
    | internet hmark hfraction hzone =>
        exact findSome?_internet h (Internet.shows_rendering hyear hmark hfraction hzone)
    | mail hweekDay hday hmonth hzone =>
        obtain ⟨c, hc, hdigit⟩ := Mail.exists_mem_take hweekDay hday
        exact findSome?_mail h (fun _ => Internet.not_shows_of_mem_take hc hdigit)
          (Mail.shows_rendering hyear hweekDay hday hmonth hzone)
    | dateTime hnote => exact findSome?_dateTime h hyear hnote
    | dateHalfDay hnote => exact findSome?_dateHalfDay h hyear hnote
    | dateMarkTime => exact findSome?_dateMarkTime h hyear
    | dateMinute hsecond => exact findSome?_dateMinute h hyear hsecond
    | date hmidnight => exact findSome?_date h hyear hmidnight
    | printed hne hword hmonth => exact findSome?_printed h hyear hne hword hmonth
  rw [Timestamp.read, hrenders.trim_eq hyear hbefore hafter, hfound]

/-- The last second of a leap day with an offset, on a clock of twelve hours, and behind a word
that is no weekday. -/
theorem read_leapDay :
    Parsers.standard.Documented ∧
      read .standard "2024-02-29 23:59:59.25-11:30".toList =
        .ok ⟨⟨2024, 2, 29, by decide⟩, ⟨23, 59, 59, by decide⟩⟩ ∧
      read .standard "2024-02-29 11:59:59 PM UTC".toList =
        .ok ⟨⟨2024, 2, 29, by decide⟩, ⟨23, 59, 59, by decide⟩⟩ ∧
      read .standard " Someday Feb 29 23:59:59 2024 ".toList =
        .ok ⟨⟨2024, 2, 29, by decide⟩, ⟨23, 59, 59, by decide⟩⟩ := by
  let instant : Instant := ⟨⟨2024, 2, 29, by decide⟩, ⟨23, 59, 59, by decide⟩⟩
  have hyear : 0 ≤ instant.date.year ∧ instant.date.year ≤ 9999 := by decide
  have hfraction : IsFraction ".25".toList :=
    Or.inr ⟨['2', '5'], by decide, List.all_eq_true.mp (by decide), by decide⟩
  have hzone : ShowsZone (-41400) "-11:30".toList :=
    Or.inr ⟨'-', by decide, 11, 30, by decide, by decide, by decide, by decide⟩
  have hmonth : Spells Scale.monthNames.short (instant.date.month - 1) "Feb".toList :=
    ⟨"feb".toList, by decide, by decide⟩
  have hinternet : Renders instant (dateText instant.date ++
      ' ' :: (timeText instant.time ++ (".25".toList ++ "-11:30".toList))) :=
    .internet (Or.inr rfl) hfraction hzone
  have hhalf : Renders instant (dateText instant.date ++
      ' ' :: (halfDayText instant.time ++ " UTC".toList)) := .dateHalfDay (Or.inr rfl)
  have hprinted : Renders instant ("Someday".toList ++ ' ' :: printedText instant "Feb".toList) :=
    .printed (by decide) (List.all_eq_true.mp (by decide)) hmonth
  have htexts : "2024-02-29 23:59:59.25-11:30".toList = [] ++ (dateText instant.date ++
        ' ' :: (timeText instant.time ++ (".25".toList ++ "-11:30".toList)) ++ []) ∧
      "2024-02-29 11:59:59 PM UTC".toList = [] ++ (dateText instant.date ++
        ' ' :: (halfDayText instant.time ++ " UTC".toList) ++ []) ∧
      " Someday Feb 29 23:59:59 2024 ".toList =
        [' '] ++ (("Someday".toList ++ ' ' :: printedText instant "Feb".toList) ++ [' ']) := by
    decide +kernel
  have hstandard := Parsers.standard_documented
  rw [htexts.1, htexts.2.1, htexts.2.2]
  exact ⟨hstandard, read_rendering hstandard hyear hinternet isGap_nil isGap_nil,
    read_rendering hstandard hyear hhalf isGap_nil isGap_nil,
    read_rendering hstandard hyear hprinted isGap_blank isGap_blank⟩

end Timetable.Timestamp
