import Timetable.Proofs.Text.Printed
import Timetable.Proofs.Timestamp.Pieces

/-!
# Renderings of instants

The forms in which an instant of the years 0 to 9999 is written as a timestamp:
those of the Internet and of mail, which have a zone, and those that programs
print. All numbers have their digits in full but for the day of a month by name.
-/

namespace Timetable

open Text

/-- Two digits show a day. -/
theorem Date.day_lt (date : Date) : date.day < 100 := date.day_le.trans_lt (by decide)

theorem Date.month_lt (date : Date) : date.month < 100 := by
  have h := date.isDate.2.1
  omega

theorem Date.dayOfYear_le (date : Date) : date.dayOfYear ≤ 372 := by
  have hmonths : ∀ (months : List Nat) (day : Nat),
      months.foldr (fun month days => daysInMonth date.year month + days) day ≤
        31 * months.length + day := by
    intro months day
    induction months with
    | nil => exact Nat.le_add_left _ _
    | cons month months ih =>
        have hmonth := daysInMonth_le date.year month
        rw [List.foldr_cons, List.length_cons]
        omega
  have hsum := hmonths (List.range' 1 (date.month - 1)) date.day
  have hday := date.day_le
  have hmonth := date.isDate.2.1
  rw [List.length_range'] at hsum
  unfold dayOfYear
  omega

theorem TimeOfDay.seconds_lt (time : TimeOfDay) : time.seconds < 86400 := by
  have htime := time.isTime
  unfold seconds
  omega

/-- The years that four digits render. -/
def Date.HasShortYear (date : Date) : Prop := 0 ≤ date.year ∧ date.year ≤ 9999

theorem Date.HasShortYear.toNat_lt {date : Date} (h : date.HasShortYear) :
    date.year.toNat < 10000 := by
  have hyear := h.2
  omega

theorem Date.HasShortYear.toNat_eq {date : Date} (h : date.HasShortYear) :
    (date.year.toNat : Int) = date.year := Int.toNat_of_nonneg h.1

namespace Timestamp

/-! ## Dates and times -/

/-- Year, month and day between hyphens. -/
def dateText (date : Date) : Text :=
  fourDigits date.year.toNat ++ '-' :: (twoDigits date.month ++ '-' :: twoDigits date.day)

/-- Hour, minute and second between colons. -/
def clockText (hour minute second : Nat) : Text :=
  twoDigits hour ++ ':' :: (twoDigits minute ++ ':' :: twoDigits second)

def timeText (time : TimeOfDay) : Text := clockText time.hour time.minute time.second

theorem dialHour_le (hour : Nat) : 1 ≤ dialHour hour ∧ dialHour hour ≤ 12 := by
  unfold dialHour
  split <;> omega

/-- The half of the day. -/
def halfText (hour : Nat) : Text := if hour < 12 then "AM".toList else "PM".toList

/-- The time on a clock of twelve hours with the half of the day. -/
def halfDayText (time : TimeOfDay) : Text :=
  clockText (dialHour time.hour) time.minute time.second ++ ' ' :: halfText time.hour

/-- A fraction of a second: a point with any number of digits behind it, or nothing. -/
def IsFraction (t : Text) : Prop :=
  t = [] ∨ ∃ ds, ds ≠ [] ∧ (∀ c ∈ ds, c.isDigit = true) ∧ t = '.' :: ds

/-- The text shows an offset from universal time of less than a day: one of the signs, then
hours and minutes with a mark between them. -/
def ShowsOffset (signs : List Char) (mark : Text) (offset : Int) (t : Text) : Prop :=
  ∃ sign ∈ signs, ∃ hours minutes, hours < 24 ∧ minutes < 60 ∧
    offset = secondsEast sign hours minutes ∧
    t = sign :: (twoDigits hours ++ (mark ++ twoDigits minutes))

/-- The text shows an offset from universal time, which has a letter of its own. -/
def ShowsZone (offset : Int) (t : Text) : Prop :=
  offset = 0 ∧ t ∈ [['Z'], ['z']] ∨ ShowsOffset ['+', '-', '\u2212'] [':'] offset t

/-- A note that a time is universal, or nothing. -/
def IsNote (t : Text) : Prop := t = [] ∨ t = " UTC".toList

/-- The day of a month in two characters, the first of which may be a blank. -/
def paddedDay (day : Nat) : Text := if day < 10 then ' ' :: ofNat day else ofNat day

/-- The weekday of a date by name with a comma and a blank behind it, or nothing. -/
def IsWeekDayPart (date : Date) (t : Text) : Prop :=
  t = [] ∨ ∃ name, Spells Scale.weekDayNames.short date.weekDay name ∧ t = name ++ ", ".toList

/-- Day, month, year, time and zone of a mail message. -/
def mailText (instant : Instant) (day month zone : Text) : Text :=
  day ++ ' ' :: (month ++ ' ' :: (fourDigits instant.date.year.toNat ++
    ' ' :: (timeText instant.time ++ ' ' :: zone)))

/-- Month, day, time and year as clocks print them. -/
def printedText (instant : Instant) (month : Text) : Text :=
  month ++ ' ' :: (paddedDay instant.date.day ++ ' ' :: (timeText instant.time ++
    ' ' :: fourDigits instant.date.year.toNat))

/-! ## Timestamps -/

/-- The ways to render an instant. -/
inductive Renders (instant : Instant) : Text → Prop
  | internet {mark fraction zone offset} (hmark : mark = 'T' ∨ mark = ' ')
      (hfraction : IsFraction fraction) (hzone : ShowsZone offset zone) :
      Renders instant
        (dateText instant.date ++ mark :: (timeText instant.time ++ (fraction ++ zone)))
  | mail {weekDay day month zone offset} (hweekDay : IsWeekDayPart instant.date weekDay)
      (hday : day = twoDigits instant.date.day ∨ day = ofNat instant.date.day)
      (hmonth : Spells Scale.monthNames.short (instant.date.month - 1) month)
      (hzone : ShowsOffset ['+', '-'] [] offset zone) :
      Renders instant (weekDay ++ mailText instant day month zone)
  | dateTime {note} (hnote : IsNote note) :
      Renders instant (dateText instant.date ++ ' ' :: (timeText instant.time ++ note))
  | dateHalfDay {note} (hnote : IsNote note) :
      Renders instant (dateText instant.date ++ ' ' :: (halfDayText instant.time ++ note))
  | dateMarkTime : Renders instant (dateText instant.date ++ 'T' :: timeText instant.time)
  | dateMinute (hsecond : instant.time.second = 0) :
      Renders instant (dateText instant.date ++
        ' ' :: (twoDigits instant.time.hour ++ ':' :: twoDigits instant.time.minute))
  | date (hmidnight : instant.time.seconds = 0) : Renders instant (dateText instant.date)
  | printed {word month} (hne : word ≠ []) (hword : ∀ c ∈ word, c.isAlpha = true)
      (hmonth : Spells Scale.monthNames.short (instant.date.month - 1) month) :
      Renders instant (word ++ ' ' :: printedText instant month)

/-! ## Ends of renderings -/

/-- The text starts with a character that is not a blank. -/
def StartsVisible (t : Text) : Prop := ∃ c, t.head? = some c ∧ isBlank c = false

/-- The text ends with a character that is not a blank. -/
def EndsVisible (t : Text) : Prop := ∃ c, t.getLast? = some c ∧ isBlank c = false

theorem StartsVisible.isBlank_eq {t : Text} (h : StartsVisible t) :
    ∀ c ∈ t.head?, isBlank c = false := by
  obtain ⟨first, hfirst, hblank⟩ := h
  intro c hc
  rw [hfirst] at hc
  cases hc
  exact hblank

theorem EndsVisible.isBlank_eq {t : Text} (h : EndsVisible t) :
    ∀ c ∈ t.getLast?, isBlank c = false := by
  obtain ⟨last, hlast, hblank⟩ := h
  intro c hc
  rw [hlast] at hc
  cases hc
  exact hblank

theorem StartsVisible.append {s : Text} (h : StartsVisible s) (t : Text) :
    StartsVisible (s ++ t) := by
  obtain ⟨c, hc, hblank⟩ := h
  exact ⟨c, by rw [List.head?_append, hc, Option.some_or], hblank⟩

theorem EndsVisible.append {t : Text} (h : EndsVisible t) (s : Text) : EndsVisible (s ++ t) := by
  obtain ⟨c, hc, hblank⟩ := h
  exact ⟨c, by rw [List.getLast?_append, hc, Option.some_or], hblank⟩

theorem EndsVisible.cons {t : Text} (h : EndsVisible t) (c : Char) : EndsVisible (c :: t) :=
  h.append [c]

theorem EndsVisible.behind {s t : Text} {c : Char} (h : EndsVisible t) :
    EndsVisible (s ++ c :: t) := (h.cons c).append s

/-- Digits and letters alone start and end visibly. -/
theorem visible_of_forall {t : Text} (hne : t ≠ [])
    (h : ∀ c ∈ t, c.isDigit = true ∨ c.isAlpha = true) : StartsVisible t ∧ EndsVisible t := by
  constructor
  · refine ⟨t.head hne, List.head?_eq_some_head hne, ?_⟩
    exact isBlank_eq_false_of_visible (h _ (List.head_mem hne))
  · refine ⟨t.getLast hne, List.getLast?_eq_some_getLast hne, ?_⟩
    exact isBlank_eq_false_of_visible (h _ (List.getLast_mem hne))

theorem startsVisible_of_spells {names : List Text} {i : Nat} {t : Text}
    (h : Spells names i t) (hnames : AreNames names) : StartsVisible t :=
  (visible_of_forall (h.ne_nil hnames) fun _ hc => Or.inr (h.isAlpha hnames hc)).1

/-- A number starts visibly. -/
theorem ShowsNumber.startsVisible {least most n : Nat} {rest t : Text}
    (h : ShowsNumber least most n rest t) (hleast : 0 < least) : StartsVisible t := by
  obtain ⟨c, hc, hdigit⟩ := h.exists_isDigit hleast
  exact ⟨c, hc, isBlank_eq_false_of_visible (Or.inl hdigit)⟩

theorem visible_twoDigits {n : Nat} (h : n < 100) :
    StartsVisible (twoDigits n) ∧ EndsVisible (twoDigits n) :=
  visible_of_forall (List.cons_ne_nil _ _) fun _ hc => Or.inl (isDigit_of_mem_twoDigits h hc)

theorem visible_fourDigits {n : Nat} (h : n < 10000) :
    StartsVisible (fourDigits n) ∧ EndsVisible (fourDigits n) :=
  visible_of_forall (List.cons_ne_nil _ _) fun _ hc => Or.inl (isDigit_of_mem_fourDigits h hc)

theorem visible_ofNat (n : Nat) : StartsVisible (ofNat n) ∧ EndsVisible (ofNat n) :=
  visible_of_forall Nat.toDigits_ne_nil fun _ hc => Or.inl (isDigit_of_mem_ofNat hc)

section Ends

variable {date : Date} {time : TimeOfDay} {t : Text}

theorem startsVisible_dateText (hyear : date.HasShortYear) : StartsVisible (dateText date) :=
  (visible_fourDigits hyear.toNat_lt).1.append _

theorem endsVisible_clockText {hour minute second : Nat} (h : second < 100) :
    EndsVisible (clockText hour minute second) :=
  (visible_twoDigits h).2.behind.behind

theorem endsVisible_timeText (time : TimeOfDay) : EndsVisible (timeText time) := by
  have hsecond := time.isTime.2.2
  exact endsVisible_clockText (by omega)

theorem ShowsOffset.endsVisible {signs : List Char} {mark : Text} {offset : Int}
    (h : ShowsOffset signs mark offset t) : EndsVisible t := by
  obtain ⟨sign, -, hours, minutes, -, hminutes, -, rfl⟩ := h
  exact (((visible_twoDigits (by omega)).2.append mark).append _).cons sign

theorem ShowsZone.endsVisible {offset : Int} (h : ShowsZone offset t) : EndsVisible t := by
  rcases h with ⟨-, hletter⟩ | h
  · rcases List.mem_pair.mp hletter with rfl | rfl
    · exact ⟨'Z', rfl, by decide⟩
    · exact ⟨'z', rfl, by decide⟩
  · exact h.endsVisible

theorem IsNote.endsVisible_append (h : IsNote t) {s : Text} (hs : EndsVisible s) :
    EndsVisible (s ++ t) := by
  rcases h with rfl | rfl
  · rwa [List.append_nil]
  · exact EndsVisible.append ⟨'C', rfl, by decide⟩ s

theorem IsNote.head?_eq (h : IsNote t) : ∀ c ∈ t.head?, c = ' ' := by
  rcases h with rfl | rfl
  · rintro c ⟨⟩
  · simp

theorem endsVisible_halfDayText (time : TimeOfDay) : EndsVisible (halfDayText time) := by
  have hhalf : EndsVisible (halfText time.hour) := by
    unfold halfText
    split
    · exact ⟨'M', rfl, by decide⟩
    · exact ⟨'M', rfl, by decide⟩
  exact hhalf.behind

theorem IsWeekDayPart.startsVisible_append (h : IsWeekDayPart date t) {s : Text}
    (hs : StartsVisible s) : StartsVisible (t ++ s) := by
  rcases h with rfl | ⟨name, hname, rfl⟩
  · exact hs
  · exact ((startsVisible_of_spells hname areNames_weekDays).append _).append s

end Ends

/-- No rendering starts or ends with a blank. -/
theorem Renders.visible {instant : Instant} {t : Text} (h : Renders instant t)
    (hyear : instant.date.HasShortYear) : StartsVisible t ∧ EndsVisible t := by
  have hdate : ∀ rest, StartsVisible (dateText instant.date ++ rest) := fun rest =>
    (startsVisible_dateText hyear).append rest
  have hday := instant.date.day_le
  have hmonth := instant.date.month_lt
  have htime := instant.time.isTime
  cases h with
  | internet _ _ hzone =>
      exact ⟨hdate _, ((hzone.endsVisible.append _).append _).behind⟩
  | @mail _ day _ _ _ hweekDay hdayText _ hzone =>
      have hstart : StartsVisible day := by
        rcases hdayText with rfl | rfl
        · exact (visible_twoDigits (by omega)).1
        · exact (visible_ofNat _).1
      exact ⟨hweekDay.startsVisible_append (hstart.append _),
        hzone.endsVisible.behind.behind.behind.behind.append _⟩
  | dateTime hnote =>
      exact ⟨hdate _, (hnote.endsVisible_append (endsVisible_timeText _)).behind⟩
  | dateHalfDay hnote =>
      exact ⟨hdate _, (hnote.endsVisible_append (endsVisible_halfDayText _)).behind⟩
  | dateMarkTime => exact ⟨hdate _, (endsVisible_timeText _).behind⟩
  | dateMinute =>
      have hminute := (visible_twoDigits (show instant.time.minute < 100 by omega)).2
      exact ⟨hdate _, hminute.behind.behind⟩
  | date =>
      have hlast := (visible_twoDigits (show instant.date.day < 100 by omega)).2
      exact ⟨startsVisible_dateText hyear, hlast.behind.behind⟩
  | printed hne hword _ =>
      have hlast := (visible_fourDigits hyear.toNat_lt).2
      exact ⟨(visible_of_forall hne fun c hc => Or.inr (hword c hc)).1.append _,
        hlast.behind.behind.behind.behind⟩

/-- Trimming leaves a rendering of the text around it. -/
theorem Renders.trim_eq {instant : Instant} {before after t : Text} (h : Renders instant t)
    (hyear : instant.date.HasShortYear) (hbefore : IsGap before) (hafter : IsGap after) :
    trim (before ++ (t ++ after)) = t := by
  obtain ⟨hstart, hend⟩ := h.visible hyear
  exact trim_gap_append_gap hbefore hafter hstart.isBlank_eq hend.isBlank_eq

end Timestamp

end Timetable
