import Timetable.Proofs.Timestamp.Documented

/-!
# Matching renderings with patterns

A piece takes the front of a text in one way only, which is that of its reader. So a
pattern is matched step by step: each piece takes what a rendering has in its place, or
it meets a character that it may not, or the pattern ends before the text.
-/

namespace Timetable.Timestamp

open Text Reader

theorem dialHour_mod (hour : Nat) : dialHour hour % 12 = hour % 12 := by
  unfold dialHour
  split <;> omega

/-! ## Pieces -/

namespace Piece

variable {piece : Piece} {n : Int} {t rest : Text}

theorem shortNumber_eq_some_iff {n : Nat} :
    shortNumber t = some (n, rest) ↔
      ∃ gap u, IsGap gap ∧ ShowsNumber 1 2 n rest u ∧ t = gap ++ u := by
  rw [shortNumber, bind_eq_some_iff]
  constructor
  · rintro ⟨_, u, hblanks, hnumber⟩
    obtain ⟨gap, hgap, -, rfl⟩ := blanks_eq_some_iff.mp hblanks
    exact ⟨gap, u, hgap, number_eq_some_iff.mp hnumber, rfl⟩
  · rintro ⟨gap, u, hgap, hnumber, rfl⟩
    have hstop := (hnumber.startsVisible Nat.one_pos).isBlank_eq
    exact ⟨(), u, blanks_eq_some_iff.mpr ⟨gap, hgap, hstop, rfl⟩, number_eq_some_iff.mpr hnumber⟩

theorem signedYear_eq_some_iff :
    signedYear t = some (n, rest) ↔ ∃ gap u, IsGap gap ∧ ShowsYear rest n u ∧ t = gap ++ u := by
  constructor
  · intro h
    obtain ⟨gap, hgap, ht⟩ := exists_gap_trimStart t
    refine ⟨gap, trimStart t, hgap, ?_, ht⟩
    unfold signedYear at h
    split at h
    · next tail heq =>
        obtain ⟨⟨ds, left⟩, hdigits, ⟨⟩⟩ := Option.map_eq_some_iff.mp h
        obtain ⟨hleast, hds, hstop, rfl⟩ := digits_eq_some_iff.mp hdigits
        rw [heq]
        exact .positive (List.ne_nil_of_length_pos hleast) hds hstop
    · next tail heq =>
        obtain ⟨⟨ds, left⟩, hdigits, ⟨⟩⟩ := Option.map_eq_some_iff.mp h
        obtain ⟨hleast, hds, hstop, rfl⟩ := digits_eq_some_iff.mp hdigits
        rw [heq]
        exact .negative (List.ne_nil_of_length_pos hleast) hds hstop
    · obtain ⟨⟨k, left⟩, hnumber, ⟨⟩⟩ := Option.map_eq_some_iff.mp h
      exact .plain (number_eq_some_iff.mp hnumber)
  · rintro ⟨gap, u, hgap, hyear, rfl⟩
    unfold signedYear
    rw [trimStart_gap_append hgap]
    cases hyear with
    | positive hne hdigits hstop =>
        rw [trimStart_of_head (by decide)]
        exact Option.map_eq_some_iff.mpr ⟨_, digits_eq_some_iff.mpr
          ⟨List.length_pos_of_ne_nil hne, hdigits, hstop, rfl⟩, rfl⟩
    | negative hne hdigits hstop =>
        rw [trimStart_of_head (by decide)]
        exact Option.map_eq_some_iff.mpr ⟨_, digits_eq_some_iff.mpr
          ⟨List.length_pos_of_ne_nil hne, hdigits, hstop, rfl⟩, rfl⟩
    | plain hnumber =>
        obtain ⟨d, hd, hdigit⟩ := hnumber.exists_isDigit Nat.one_pos
        rw [trimStart_eq_self (hnumber.startsVisible Nat.one_pos).isBlank_eq]
        split
        · obtain rfl := Option.some.inj hd
          exact absurd hdigit (by decide)
        · obtain rfl := Option.some.inj hd
          exact absurd hdigit (by decide)
        · exact Option.map_eq_some_iff.mpr ⟨_, number_eq_some_iff.mpr hnumber, rfl⟩

/-- A piece is read as what it takes. -/
theorem read_eq_some_iff : piece.read t = some (n, rest) ↔ piece.Takes rest n t := by
  cases piece with
  | year =>
      refine signedYear_eq_some_iff.trans ?_
      constructor
      · rintro ⟨gap, u, hgap, hyear, rfl⟩
        exact .year hgap hyear
      · rintro ⟨hgap, hyear⟩
        exact ⟨_, _, hgap, hyear, rfl⟩
  | number part =>
      rw [read, bind_eq_some_iff]
      simp only [pure_eq_some_iff, shortNumber_eq_some_iff]
      constructor
      · rintro ⟨k, _, ⟨gap, u, hgap, hnumber, rfl⟩, rfl, rfl⟩
        exact .number hgap hnumber
      · intro h
        cases h with
        | number hgap hnumber => exact ⟨_, rest, ⟨_, _, hgap, hnumber, rfl⟩, rfl, rfl⟩
  | name part =>
      rw [read, bind_eq_some_iff]
      simp only [pure_eq_some_iff, name_eq_some_iff part.areNames part.length_names]
      constructor
      · rintro ⟨i, _, ⟨u, hspells, rfl⟩, rfl, rfl⟩
        exact .name hspells
      · intro h
        cases h with
        | name hspells => exact ⟨_, rest, ⟨_, hspells, rfl⟩, rfl, rfl⟩
  | blanks =>
      rw [read, bind_eq_some_iff]
      simp only [pure_eq_some_iff, blanks_eq_some_iff]
      constructor
      · rintro ⟨_, _, ⟨gap, hgap, hstop, rfl⟩, rfl, rfl⟩
        exact .blanks hgap hstop
      · intro h
        cases h with
        | blanks hgap hstop => exact ⟨(), rest, ⟨_, hgap, hstop, rfl⟩, rfl, rfl⟩
  | literal c =>
      rw [read, bind_eq_some_iff]
      simp only [pure_eq_some_iff, literal_eq_some_iff]
      constructor
      · rintro ⟨_, _, rfl, rfl, rfl⟩
        exact .literal
      · intro h
        cases h with
        | literal => exact ⟨(), rest, rfl, rfl, rfl⟩

/-- A piece takes the front of a text in one way only. -/
theorem Takes.unique {m : Int} {left : Text} (h : piece.Takes rest n t)
    (hother : piece.Takes left m t) : n = m ∧ rest = left := by
  have hread := (read_eq_some_iff.mpr h).symm.trans (read_eq_some_iff.mpr hother)
  exact Prod.mk.inj (Option.some.inj hread)

theorem takes_of_showsNumber {k : Nat} (h : ShowsNumber 1 2 k rest t) (part : NumberPart) :
    (number part).Takes rest k t := by
  rw [← List.nil_append t]
  exact .number isGap_nil h

theorem takes_twoDigits {k : Nat} (hk : k < 100) (part : NumberPart) (rest : Text) :
    (number part).Takes rest k (twoDigits k ++ rest) :=
  takes_of_showsNumber (showsNumber_twoDigits hk rest) part

/-- The digits of a number without any in front of them are taken where no more follow. -/
theorem takes_ofNat {k : Nat} (hk : k < 100) (part : NumberPart)
    (hstop : ∀ c ∈ rest.head?, c.isDigit = false) :
    (number part).Takes rest k (ofNat k ++ rest) :=
  takes_of_showsNumber (showsNumber_ofNat hk hstop) part

theorem takes_fourDigits {k : Nat} (hk : k < 10000) (rest : Text) :
    year.Takes rest k (fourDigits k ++ rest) := by
  have hshows : ShowsNumber 1 4 k rest (fourDigits k ++ rest) :=
    .intro (fun _ hc => isDigit_of_mem_fourDigits hk hc) (Nat.le_add_left 1 3) le_rfl
      (Or.inl rfl) (toNat_fourDigits hk)
  rw [← List.nil_append (fourDigits k ++ rest)]
  exact .year isGap_nil (.plain hshows)

/-- A number is not taken where neither a blank nor a digit stands. -/
theorem not_takes_number {part : NumberPart}
    (h : ∀ c ∈ t.head?, isBlank c = false ∧ c.isDigit = false) :
    ¬(number part).Takes rest n t := by
  intro htakes
  cases htakes with
  | @number _ gap u _ hgap hnumber =>
      cases gap with
      | nil =>
          obtain ⟨d, hd, hdigit⟩ := hnumber.exists_isDigit Nat.one_pos
          rw [(h d hd).2] at hdigit
          cases hdigit
      | cons d gap =>
          have hblank := (h d rfl).1
          rw [(isGap_cons.mp hgap).1] at hblank
          cases hblank

/-- A year is not taken where a letter stands. -/
theorem not_takes_year (h : ∀ c ∈ t.head?, c.isAlpha = true) : ¬year.Takes rest n t := by
  intro htakes
  cases htakes with
  | @year gap _ u hgap hyear =>
      cases gap with
      | nil =>
          cases hyear with
          | plain hnumber =>
              obtain ⟨d, hd, hdigit⟩ := hnumber.exists_isDigit Nat.one_pos
              rw [isDigit_eq_false_of_isAlpha (h d hd)] at hdigit
              cases hdigit
          | positive => exact absurd (h '+' rfl) (by decide)
          | negative => exact absurd (h '-' rfl) (by decide)
      | cons d gap =>
          have hblank := isBlank_eq_false_of_visible (Or.inr (h d rfl))
          rw [(isGap_cons.mp hgap).1] at hblank
          cases hblank

/-- A name is not taken where no letter stands. -/
theorem not_takes_name {part : NamePart} (h : ∀ c ∈ t.head?, c.isAlpha = false) :
    ¬(name part).Takes rest n t := by
  intro htakes
  cases htakes with
  | name hspells =>
      obtain ⟨c, tail, rfl, hletter⟩ := hspells.exists_cons part.areNames
      rw [h c rfl] at hletter
      cases hletter

/-- A name that is taken from a word leaves the rest of the word. -/
theorem exists_of_takes_name {part : NamePart} {word tail : Text}
    (hword : ∀ c ∈ word, c.isAlpha = true) (h : (name part).Takes rest n (word ++ ' ' :: tail)) :
    ∃ more, (∀ c ∈ more, c.isAlpha = true) ∧ rest = more ++ ' ' :: tail := by
  generalize htext : word ++ ' ' :: tail = text at h
  cases h with
  | @name _ u i hspells =>
      rcases List.append_eq_append_iff.mp htext with ⟨more, rfl, hmore⟩ | ⟨more, rfl, rfl⟩
      · cases more with
        | nil => exact ⟨[], List.forall_mem_nil _, hmore.symm⟩
        | cons d more =>
            obtain ⟨rfl, -⟩ := List.cons.inj hmore
            have hletter := hspells.isAlpha part.areNames
              (List.mem_append_right word List.mem_cons_self)
            exact absurd hletter (by decide)
      · exact ⟨more, fun c hc => hword c (List.mem_append_right u hc), rfl⟩

end Piece

/-! ## Patterns -/

namespace Pattern

variable {instant : Instant} {second : Nat} {piece : Piece} {pattern : Pattern} {n : Int}
  {t rest : Text}

/-- A pattern goes on behind what its first piece takes. -/
theorem shows_cons_iff (h : piece.Takes rest n t) :
    Shows instant second (piece :: pattern) t ↔
      piece.shown instant second = n ∧ Shows instant second pattern rest := by
  constructor
  · rintro (_ | ⟨hpiece, hrest⟩)
    obtain ⟨hshown, rfl⟩ := hpiece.unique h
    exact ⟨hshown, hrest⟩
  · rintro ⟨rfl, hrest⟩
    exact .cons h hrest

/-- A pattern stops at a piece that takes nothing. -/
theorem not_shows_cons (h : ∀ n rest, ¬piece.Takes rest n t) :
    ¬Shows instant second (piece :: pattern) t := by
  rintro (_ | ⟨hpiece, -⟩)
  exact h _ _ hpiece

theorem not_shows_nil {c : Char} : ¬Shows instant second [] (c :: t) := by
  rintro ⟨⟩

theorem shows_literal_iff {c : Char} :
    Shows instant second (.literal c :: pattern) (c :: rest) ↔ Shows instant second pattern rest :=
  (shows_cons_iff .literal).trans (and_iff_right rfl)

/-- Literal text stops at any other character, and at the end. -/
theorem not_shows_literal {c : Char} (h : ∀ d ∈ t.head?, d ≠ c) :
    ¬Shows instant second (.literal c :: pattern) t := by
  apply not_shows_cons
  rintro _ _ ⟨⟩
  exact h c rfl rfl

/-- Blanks in front of what is not a blank are passed over. -/
theorem shows_blanks_iff {gap : Text} (hgap : IsGap gap) (h : ∀ c ∈ rest.head?, isBlank c = false) :
    Shows instant second (.blanks :: pattern) (gap ++ rest) ↔
      Shows instant second pattern rest :=
  (shows_cons_iff (.blanks hgap h)).trans (and_iff_right rfl)

theorem shows_blanks_blank_iff (h : ∀ c ∈ rest.head?, isBlank c = false) :
    Shows instant second (.blanks :: pattern) (' ' :: rest) ↔ Shows instant second pattern rest :=
  shows_blanks_iff isGap_blank h

/-- Neither is a number taken behind blanks that anything but a digit follows. -/
theorem not_shows_blanks_number {gap : Text} {part : NumberPart} (hgap : IsGap gap)
    (h : ∀ c ∈ rest.head?, isBlank c = false ∧ c.isDigit = false) :
    ¬Shows instant second (.blanks :: .number part :: pattern) (gap ++ rest) := by
  rw [shows_blanks_iff hgap fun c hc => (h c hc).1]
  exact not_shows_cons fun _ _ => Piece.not_takes_number h

/-! ## Parts of patterns -/

def isoDate : Pattern := [.year, .literal '-', .number .month, .literal '-', .number .day]

def clock : Pattern :=
  [.number .hour, .literal ':', .number .minute, .literal ':', .number .second]

/-- A clock of twelve hours with the half of the day behind it. -/
def halfDayClock : Pattern :=
  [.number .clockHour, .literal ':', .number .minute, .literal ':', .number .second, .blanks,
    .name .half]

def universal : Pattern := [.blanks, .literal 'U', .literal 'T', .literal 'C']

/-- A date and a time on a clock, with what may follow them. -/
def dateTime (clock rest : Pattern) : Pattern := isoDate ++ .blanks :: (clock ++ rest)

/-- Month, day, time and year, as clocks print them. -/
def printed : Pattern :=
  .name .month :: .blanks :: .number .day :: .blanks :: (clock ++ [.blanks, .year])

/-- The instant has the given time of day, its second as it is written. -/
def HasTime (instant : Instant) (second : Nat) (time : TimeOfDay) : Prop :=
  instant.time.hour = time.hour ∧ instant.time.minute = time.minute ∧ second = time.second

theorem shows_isoDate_iff {date : Date} (hyear : date.HasShortYear) :
    Shows instant second (isoDate ++ pattern) (dateText date ++ rest) ↔
      instant.date = date ∧ Shows instant second pattern rest := by
  simp only [isoDate, dateText, List.append_assoc, List.cons_append, List.nil_append]
  rw [shows_cons_iff (Piece.takes_fourDigits hyear.toNat_lt _), shows_literal_iff,
    shows_cons_iff (Piece.takes_twoDigits date.month_lt _ _), shows_literal_iff,
    shows_cons_iff (Piece.takes_twoDigits date.day_lt _ _)]
  simp only [Piece.shown, NumberPart.shown, hyear.toNat_eq, Int.natCast_inj, Date.ext_iff,
    and_assoc]

theorem not_shows_isoDate_letter (h : ∀ c ∈ t.head?, c.isAlpha = true) :
    ¬Shows instant second (isoDate ++ pattern) t :=
  not_shows_cons fun _ _ => Piece.not_takes_year h

theorem shows_clock_iff {hour minute sec : Nat} (hhour : hour < 100) (hminute : minute < 100)
    (hsecond : sec < 100) :
    Shows instant second (clock ++ pattern) (clockText hour minute sec ++ rest) ↔
      (instant.time.hour = hour ∧ instant.time.minute = minute ∧ second = sec) ∧
        Shows instant second pattern rest := by
  simp only [clock, clockText, List.append_assoc, List.cons_append, List.nil_append]
  rw [shows_cons_iff (Piece.takes_twoDigits hhour _ _), shows_literal_iff,
    shows_cons_iff (Piece.takes_twoDigits hminute _ _), shows_literal_iff,
    shows_cons_iff (Piece.takes_twoDigits hsecond _ _)]
  simp only [Piece.shown, NumberPart.shown, Int.natCast_inj, and_assoc]

theorem shows_timeText_iff {time : TimeOfDay} :
    Shows instant second (clock ++ pattern) (timeText time ++ rest) ↔
      HasTime instant second time ∧ Shows instant second pattern rest := by
  have htime := time.isTime
  exact shows_clock_iff (by omega) (by omega) (by omega)

theorem spells_halfText {hour : Nat} (h : hour < 24) :
    Spells NamePart.half.names (hour / 12) (halfText hour) := by
  by_cases hmorning : hour < 12
  · rw [halfText, if_pos hmorning, Nat.div_eq_of_lt hmorning]
    exact ⟨"am".toList, rfl, by decide⟩
  · have hdiv : hour / 12 = 1 := by omega
    rw [halfText, if_neg hmorning, hdiv]
    exact ⟨"pm".toList, rfl, by decide⟩

/-- The hour on a clock of twelve hours and the half of the day make up the hour. -/
theorem dialHour_and_half_iff {hour other : Nat} :
    dialHour hour = dialHour other ∧ hour / 12 = other / 12 ↔ hour = other := by
  constructor
  · rintro ⟨hdial, hhalf⟩
    have hmod := congrArg (· % 12) hdial
    simp only [dialHour_mod] at hmod
    omega
  · rintro rfl
    exact ⟨rfl, rfl⟩

theorem shows_halfDayText_iff {time : TimeOfDay} :
    Shows instant second (halfDayClock ++ pattern) (halfDayText time ++ rest) ↔
      HasTime instant second time ∧ Shows instant second pattern rest := by
  have htime := time.isTime
  have hclock := dialHour_le time.hour
  have hspells := spells_halfText htime.1
  have hstart := (startsVisible_of_spells hspells NamePart.half.areNames).append rest
  simp only [halfDayClock, halfDayText, clockText, List.append_assoc, List.cons_append,
    List.nil_append]
  rw [shows_cons_iff (Piece.takes_twoDigits (show dialHour time.hour < 100 by omega) _ _),
    shows_literal_iff,
    shows_cons_iff (Piece.takes_twoDigits (show time.minute < 100 by omega) _ _),
    shows_literal_iff,
    shows_cons_iff (Piece.takes_twoDigits (show time.second < 100 by omega) _ _),
    shows_blanks_blank_iff hstart.isBlank_eq, shows_cons_iff (.name hspells)]
  simp only [Piece.shown, NumberPart.shown, NamePart.shown, Int.natCast_inj, HasTime]
  rw [← @dialHour_and_half_iff instant.time.hour time.hour]
  tauto

theorem shows_universal : Shows instant second universal " UTC".toList := by
  have hletter : ∀ c ∈ "UTC".toList.head?, isBlank c = false := by
    rintro c ⟨⟩
    decide
  refine (shows_blanks_blank_iff hletter).mpr ?_
  exact shows_literal_iff.mpr (shows_literal_iff.mpr (shows_literal_iff.mpr .nil))

/-! ### Dates with times -/

theorem startsVisible_timeText (time : TimeOfDay) : StartsVisible (timeText time) := by
  have htime := time.isTime
  exact (visible_twoDigits (by omega)).1.append _

theorem startsVisible_halfDayText (time : TimeOfDay) : StartsVisible (halfDayText time) := by
  have hclock := dialHour_le time.hour
  exact ((visible_twoDigits (by omega)).1.append _).append _

section DateTime

variable {date : Date} {time : TimeOfDay} (hyear : date.HasShortYear)

include hyear

theorem shows_dateTime_iff :
    Shows instant second (dateTime clock pattern)
        (dateText date ++ ' ' :: (timeText time ++ rest)) ↔
      instant.date = date ∧ HasTime instant second time ∧ Shows instant second pattern rest := by
  have hstart := ((startsVisible_timeText time).append rest).isBlank_eq
  rw [dateTime, shows_isoDate_iff hyear, shows_blanks_blank_iff hstart, shows_timeText_iff]

theorem shows_dateHalfDay_iff :
    Shows instant second (dateTime halfDayClock pattern)
        (dateText date ++ ' ' :: (halfDayText time ++ rest)) ↔
      instant.date = date ∧ HasTime instant second time ∧ Shows instant second pattern rest := by
  have hstart := ((startsVisible_halfDayText time).append rest).isBlank_eq
  rw [dateTime, shows_isoDate_iff hyear, shows_blanks_blank_iff hstart, shows_halfDayText_iff]

/-- A clock of 24 hours leaves the half of the day. -/
theorem shows_of_shows_clock_halfDayText
    (h : Shows instant second (dateTime clock pattern)
      (dateText date ++ ' ' :: (halfDayText time ++ rest))) :
    Shows instant second pattern (' ' :: (halfText time.hour ++ rest)) := by
  have htime := time.isTime
  have hclock := dialHour_le time.hour
  have hstart := ((startsVisible_halfDayText time).append rest).isBlank_eq
  rw [dateTime, shows_isoDate_iff hyear, shows_blanks_blank_iff hstart, halfDayText,
    List.append_assoc, shows_clock_iff (by omega) (by omega) (by omega)] at h
  exact h.2.2

/-- No clock is found where neither blanks nor digits stand behind a date. -/
theorem not_shows_clock {part : NumberPart}
    (h : ∀ c ∈ rest.head?, isBlank c = false ∧ c.isDigit = false) :
    ¬Shows instant second (isoDate ++ .blanks :: .number part :: pattern)
      (dateText date ++ rest) := by
  rw [shows_isoDate_iff hyear, not_and]
  intro _
  exact not_shows_blanks_number isGap_nil h

/-- A clock that goes on behind the minute is not found where the minute ends the text. -/
theorem not_shows_second {part : NumberPart} {hour minute : Nat} (hhour : hour < 100)
    (hminute : minute < 100) :
    ¬Shows instant second
      (isoDate ++ .blanks :: .number part :: .literal ':' :: .number .minute :: .literal ':' ::
        pattern)
      (dateText date ++ ' ' :: (twoDigits hour ++ ':' :: twoDigits minute)) := by
  have hstart := (visible_twoDigits hhour).1.append (':' :: twoDigits minute)
  have hread := Piece.takes_twoDigits hminute .minute []
  rw [List.append_nil] at hread
  rw [shows_isoDate_iff hyear, shows_blanks_blank_iff hstart.isBlank_eq,
    shows_cons_iff (Piece.takes_twoDigits hhour _ _), shows_literal_iff, shows_cons_iff hread]
  rintro ⟨-, -, -, hcolon⟩
  exact not_shows_literal (by rintro d ⟨⟩) hcolon

end DateTime

/-! ### Printed times -/

/-- A printed day of the month has blanks before it, at least one. -/
theorem exists_gap_paddedDay (day : Nat) :
    ∃ gap, IsGap gap ∧ ' ' :: paddedDay day = gap ++ ofNat day := by
  unfold paddedDay
  split
  · exact ⟨[' ', ' '], isGap_cons.mpr ⟨by decide, isGap_blank⟩, rfl⟩
  · exact ⟨[' '], isGap_blank, rfl⟩

/-- A printed time shows its own instant and no other one. -/
theorem shows_printed_iff {printedInstant : Instant} {month : Text}
    (hyear : printedInstant.date.HasShortYear)
    (hmonth : Spells Scale.monthNames.short (printedInstant.date.month - 1) month) :
    Shows instant second printed (printedText printedInstant month) ↔
      instant.date = printedInstant.date ∧ HasTime instant second printedInstant.time := by
  have hname : Spells NamePart.month.names (printedInstant.date.month - 1) month := hmonth
  have hdayStop : ∀ rest : Text, ∀ c ∈ (' ' :: rest).head?, c.isDigit = false := by
    rintro rest c ⟨⟩
    decide
  have hyearRead := Piece.takes_fourDigits hyear.toNat_lt []
  rw [List.append_nil] at hyearRead
  obtain ⟨gap, hgap, hpadded⟩ := exists_gap_paddedDay printedInstant.date.day
  have htext : printedText printedInstant month =
      month ++ (gap ++ (ofNat printedInstant.date.day ++
        ' ' :: (timeText printedInstant.time ++
          ' ' :: fourDigits printedInstant.date.year.toNat))) := by
    rw [← List.append_assoc gap, ← hpadded]
    rfl
  rw [htext, printed, shows_cons_iff (.name hname),
    shows_blanks_iff hgap ((visible_ofNat _).1.append _).isBlank_eq,
    shows_cons_iff (Piece.takes_ofNat printedInstant.date.day_lt .day (hdayStop _)),
    shows_blanks_blank_iff ((startsVisible_timeText _).append _).isBlank_eq, shows_timeText_iff,
    shows_blanks_blank_iff (visible_fourDigits hyear.toNat_lt).1.isBlank_eq,
    shows_cons_iff hyearRead]
  have hlow := instant.date.isDate.1
  have hlowPrinted := printedInstant.date.isDate.1
  simp only [Piece.shown, NumberPart.shown, NamePart.shown, Int.natCast_inj, hyear.toNat_eq,
    Date.ext_iff]
  constructor
  · rintro ⟨hmonthEq, hdayEq, htime, hyearEq, -⟩
    exact ⟨⟨hyearEq, by omega, hdayEq⟩, htime⟩
  · rintro ⟨⟨hyearEq, hmonthEq, hdayEq⟩, htime⟩
    exact ⟨by omega, hdayEq, htime, hyearEq, .nil⟩

/-- What is left of a word may be a month, but no day can follow it. -/
theorem not_shows_printed {word : Text} (hword : ∀ c ∈ word, c.isAlpha = true)
    (hletter : ∀ c ∈ t.head?, c.isAlpha = true) :
    ¬Shows instant second printed (word ++ ' ' :: t) := by
  have hvisible : ∀ {u : Text}, (∀ c ∈ u.head?, c.isAlpha = true) →
      ∀ c ∈ u.head?, isBlank c = false ∧ c.isDigit = false := fun h c hc =>
    ⟨isBlank_eq_false_of_visible (Or.inr (h c hc)), isDigit_eq_false_of_isAlpha (h c hc)⟩
  rintro (_ | ⟨hname, hrest⟩)
  obtain ⟨more, hmore, rfl⟩ := Piece.exists_of_takes_name hword hname
  cases more with
  | nil => exact not_shows_blanks_number isGap_blank (hvisible hletter) hrest
  | cons d more =>
      refine not_shows_blanks_number isGap_nil (hvisible ?_) hrest
      rintro c ⟨⟩
      exact hmore d List.mem_cons_self

/-- Behind a word that is read as a weekday a printed time shows its own instant. -/
theorem eq_of_shows_weekDay_printed {printedInstant : Instant} {word month : Text}
    (hyear : printedInstant.date.HasShortYear) (hword : ∀ c ∈ word, c.isAlpha = true)
    (hmonth : Spells Scale.monthNames.short (printedInstant.date.month - 1) month)
    (h : Shows instant second (.name .weekDay :: .blanks :: printed)
      (word ++ ' ' :: printedText printedInstant month)) :
    instant.date = printedInstant.date ∧ HasTime instant second printedInstant.time := by
  have hletter := hmonth.startsWithLetter areNames_months
    (' ' :: (paddedDay printedInstant.date.day ++ ' ' :: (timeText printedInstant.time ++
      ' ' :: fourDigits printedInstant.date.year.toNat)))
  have hblank : ∀ c ∈ (printedText printedInstant month).head?, isBlank c = false := fun c hc =>
    isBlank_eq_false_of_visible (Or.inr (hletter c hc))
  rcases h with _ | ⟨hname, hrest⟩
  obtain ⟨more, hmore, rfl⟩ := Piece.exists_of_takes_name hword hname
  cases more with
  | nil => exact (shows_printed_iff hyear hmonth).mp ((shows_blanks_blank_iff hblank).mp hrest)
  | cons d more =>
      have hvisible : ∀ c ∈ (d :: more ++ ' ' :: printedText printedInstant month).head?,
          isBlank c = false := by
        rintro c ⟨⟩
        exact isBlank_eq_false_of_visible (Or.inr (hmore d List.mem_cons_self))
      exact absurd ((shows_blanks_iff isGap_nil hvisible).mp hrest)
        (not_shows_printed hmore hletter)

end Pattern

end Timetable.Timestamp
