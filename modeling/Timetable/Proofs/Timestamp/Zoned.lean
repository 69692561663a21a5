import Mathlib.Data.Option.Basic
import Timetable.Proofs.Timestamp.Forms
import Timetable.Timestamp.Internet
import Timetable.Timestamp.Mail

/-!
# Reading the forms with a zone

The parts of a timestamp are read step by step, and make an instant if the date and the time
exist. The Internet form is read as it is shown and in no other way. The mail form is read from
its plain spellings, and what is read has the front of a mail form.
-/

namespace Timetable

theorem Date.of?_eq_some_iff {year : Int} {month day : Nat} {date : Date} :
    Date.of? year month day = some date ↔
      date.year = year ∧ date.month = month ∧ date.day = day := by
  unfold of?
  split
  · rw [Option.some_inj]
    constructor
    · rintro rfl
      exact ⟨rfl, rfl, rfl⟩
    · rintro ⟨rfl, rfl, rfl⟩
      rfl
  · next hdate =>
      constructor
      · rintro ⟨⟩
      · rintro ⟨rfl, rfl, rfl⟩
        exact absurd date.isDate hdate

theorem TimeOfDay.of?_eq_some_iff {hour minute second : Nat} {time : TimeOfDay} :
    TimeOfDay.of? hour minute second = some time ↔
      time.hour = hour ∧ time.minute = minute ∧ time.second = second := by
  unfold of?
  split
  · rw [Option.some_inj]
    constructor
    · rintro rfl
      exact ⟨rfl, rfl, rfl⟩
    · rintro ⟨rfl, rfl, rfl⟩
      rfl
  · next htime =>
      constructor
      · rintro ⟨⟩
      · rintro ⟨rfl, rfl, rfl⟩
        exact absurd time.isTime htime

namespace Timestamp

open Text Reader

namespace Parts

variable {parts : Parts}

theorem date?_eq_some_iff {date : Date} :
    parts.date? = some date ↔ IsSupportedYear parts.year ∧
      (date.year = parts.year ∧ date.month = parts.month ∧ date.day = parts.day) ∧
        ∀ weekDay ∈ parts.weekDay?, weekDay = date.weekDay := by
  have hall : ∀ date : Date, (parts.weekDay?.all fun weekDay => weekDay == date.weekDay) = true ↔
      ∀ weekDay ∈ parts.weekDay?, weekDay = date.weekDay := by
    intro date
    cases parts.weekDay? <;> simp
  simp only [date?, Option.bind_eq_bind, Option.bind_eq_some_iff, Option.guard_eq_some',
    Date.of?_eq_some_iff, hall, Option.pure_def, Option.some_inj, exists_const]
  constructor
  · rintro ⟨hyear, date, hdate, hweekDay, rfl⟩
    exact ⟨hyear, hdate, hweekDay⟩
  · rintro ⟨hyear, hdate, hweekDay⟩
    exact ⟨hyear, date, hdate, hweekDay, rfl⟩

/-- The parts make up an instant if they are its own and the weekday is the right one. -/
theorem instant?_eq_some_iff {instant : Instant} :
    parts.instant? = some instant ↔ parts.date? = some instant.date ∧
      instant.time.hour = parts.hour ∧ instant.time.minute = parts.minute ∧
        instant.time.second = countedSecond parts.second := by
  simp only [instant?, Option.bind_eq_bind, Option.bind_eq_some_iff, TimeOfDay.of?_eq_some_iff,
    Option.pure_def, Option.some_inj]
  constructor
  · rintro ⟨date, hdate, time, htime, rfl⟩
    exact ⟨hdate, htime⟩
  · rintro ⟨hdate, htime⟩
    exact ⟨instant.date, hdate, instant.time, htime, rfl⟩

/-- The parts that show an instant make it up. -/
theorem instant?_eq_some {instant : Instant} {second : Nat} {weekDay? : Option Nat}
    (hyear : instant.date.HasShortYear) (hsecond : countedSecond second = instant.time.second)
    (hweekDay : ∀ weekDay ∈ weekDay?, weekDay = instant.date.weekDay) :
    Parts.instant? ⟨instant.date.year, instant.date.month, instant.date.day, instant.time.hour,
      instant.time.minute, second, weekDay?⟩ = some instant :=
  instant?_eq_some_iff.mpr ⟨date?_eq_some_iff.mpr
    ⟨isSupportedYear_of_hasShortYear hyear, ⟨rfl, rfl, rfl⟩, hweekDay⟩, rfl, rfl, hsecond.symm⟩

end Parts

/-! ## Steps -/

namespace Reader

theorem whole_eq_some_iff {α : Type} {reader : Reader α} {t : Text} {value : α} :
    whole reader t = some value ↔ reader t = some (value, []) := by
  unfold whole
  split
  · next heq => simp [heq]
  · next hother =>
      constructor
      · rintro ⟨⟩
      · intro heq
        exact absurd heq (hother value)

variable {n : Nat} {gap rest : Text}

theorem number_twoDigits (h : n < 100) (rest : Text) :
    number 2 2 (twoDigits n ++ rest) = some (n, rest) := number_two_eq_some_iff.mpr ⟨h, rfl⟩

theorem number_fourDigits (h : n < 10000) (rest : Text) :
    number 4 4 (fourDigits n ++ rest) = some (n, rest) := number_four_eq_some_iff.mpr ⟨h, rfl⟩

theorem literal_cons (c : Char) (rest : Text) : literal [c] (c :: rest) = some ((), rest) :=
  literal_eq_some_iff.mpr rfl

theorem blanks_gap (hgap : IsGap gap) (h : StartsVisible rest) :
    blanks (gap ++ rest) = some ((), rest) :=
  blanks_eq_some_iff.mpr ⟨gap, hgap, h.isBlank_eq, rfl⟩

theorem blanks_visible (h : StartsVisible rest) : blanks rest = some ((), rest) :=
  blanks_gap isGap_nil h

theorem someBlanks_space (hspace : Mail.IsSpace gap) (h : StartsVisible rest) :
    someBlanks (gap ++ rest) = some ((), rest) :=
  someBlanks_eq_some_iff.mpr ⟨gap, hspace.1, hspace.2, h.isBlank_eq, rfl⟩

end Reader

/-! ## The Internet form -/

namespace Internet

variable {zoned : ZonedInstant} {offset : Int} {t rest : Text}

theorem offset_eq_some_iff :
    Internet.offset t = some (offset, rest) ↔
      ∃ u, ShowsOffset ['+', '-', '\u2212'] [':'] offset u ∧ t = u ++ rest := by
  have hwanted : ∀ c, (c == '+' || c == '-' || c == '\u2212') = true ↔
      c ∈ ['+', '-', '\u2212'] := by
    simp [or_assoc]
  simp only [Internet.offset, bind_eq_some_iff, oneOf_eq_some_iff, number_two_eq_some_iff,
    literal_eq_some_iff, guard_eq_some_iff, pure_eq_some_iff, hwanted]
  constructor
  · rintro ⟨sign, _, ⟨hsign, rfl⟩, hours, _, ⟨-, rfl⟩, _, _, rfl, minutes, _, ⟨-, rfl⟩, _, _,
      ⟨⟨hhours, hminutes⟩, rfl⟩, rfl, rfl⟩
    refine ⟨_, ⟨sign, hsign, hours, minutes, hhours, hminutes, rfl, rfl⟩, ?_⟩
    simp only [List.cons_append, List.append_assoc]
  · rintro ⟨_, ⟨sign, hsign, hours, minutes, hhours, hminutes, rfl, rfl⟩, rfl⟩
    simp only [List.cons_append, List.append_assoc]
    exact ⟨sign, _, ⟨hsign, rfl⟩, hours, _, ⟨by omega, rfl⟩, (), _, rfl, minutes, _,
      ⟨by omega, rfl⟩, (), rest, ⟨⟨hhours, hminutes⟩, rfl⟩, rfl, rfl⟩

theorem zone_eq_some_iff :
    zone t = some (offset, rest) ↔ ∃ u, ShowsZone offset u ∧ t = u ++ rest := by
  constructor
  · intro h
    unfold zone at h
    split at h
    · cases h
      exact ⟨['Z'], Or.inl ⟨rfl, by decide⟩, rfl⟩
    · cases h
      exact ⟨['z'], Or.inl ⟨rfl, by decide⟩, rfl⟩
    · obtain ⟨u, hshows, rfl⟩ := offset_eq_some_iff.mp h
      exact ⟨u, Or.inr hshows, rfl⟩
  · rintro ⟨u, ⟨rfl, hletter⟩ | hoffset, rfl⟩
    · rcases List.mem_pair.mp hletter with rfl | rfl <;> rfl
    · have hread : Internet.offset (u ++ rest) = some (offset, rest) :=
        offset_eq_some_iff.mpr ⟨u, hoffset, rfl⟩
      obtain ⟨sign, hsign, _, _, -, -, -, rfl⟩ := hoffset
      unfold zone
      split
      · next heq =>
          obtain ⟨rfl, -⟩ := List.cons.inj heq
          exact absurd hsign (by decide)
      · next heq =>
          obtain ⟨rfl, -⟩ := List.cons.inj heq
          exact absurd hsign (by decide)
      · exact hread

theorem exists_of_fraction {u : Unit} (h : fraction t = some (u, rest)) :
    ∃ f, IsFraction f ∧ t = f ++ rest := by
  unfold fraction at h
  split at h
  · obtain ⟨⟨ds, left⟩, hdigits, ⟨⟩⟩ := Option.map_eq_some_iff.mp h
    obtain ⟨hleast, hds, -, rfl⟩ := digits_eq_some_iff.mp hdigits
    exact ⟨'.' :: ds, Or.inr ⟨ds, List.ne_nil_of_length_pos hleast, hds, rfl⟩, rfl⟩
  · cases h
    exact ⟨[], Or.inl rfl, rfl⟩

/-- A fraction is read up to a zone. -/
theorem fraction_append {f : Text} (hfraction : IsFraction f) (hzone : ShowsZone offset rest) :
    fraction (f ++ rest) = some ((), rest) := by
  have hall : ∀ c ∈ ['Z', 'z', '+', '-', '\u2212'], c ≠ '.' ∧ c.isDigit = false := by simp
  have hletters : ∀ u ∈ [['Z'], ['z']], ∀ c ∈ u.head?, c ∈ ['Z', 'z', '+', '-', '\u2212'] := by
    simp
  have hstop : ∀ c ∈ rest.head?, c ≠ '.' ∧ c.isDigit = false := by
    intro c hc
    apply hall c
    rcases hzone with ⟨-, hletter⟩ | ⟨sign, hsign, _, _, -, -, -, rfl⟩
    · exact hletters rest hletter c hc
    · cases hc
      exact List.mem_cons_of_mem _ (List.mem_cons_of_mem _ hsign)
  rcases hfraction with rfl | ⟨ds, hne, hds, rfl⟩
  · rw [List.nil_append]
    unfold fraction
    split
    · exact absurd rfl (hstop '.' rfl).1
    · rfl
  · have hread : digits 1 (ds ++ rest) = some (ds, rest) :=
      digits_eq_some_iff.mpr
        ⟨List.length_pos_of_ne_nil hne, hds, fun c hc => (hstop c hc).2, rfl⟩
    rw [List.cons_append, fraction, hread]
    rfl

/-- What is read is shown. -/
theorem shows_of_zoned? (h : zoned? t = some zoned) : Shows zoned t := by
  obtain ⟨⟨found, _⟩, hfound, h⟩ := Option.bind_eq_some_iff.mp h
  obtain ⟨instant, hinstant, ⟨⟩⟩ := Option.bind_eq_some_iff.mp h
  rw [whole_eq_some_iff] at hfound
  simp only [parts, bind_eq_some_iff, number_four_eq_some_iff, number_two_eq_some_iff,
    literal_eq_some_iff, oneOf_eq_some_iff, zone_eq_some_iff, pure_eq_some_iff,
    Prod.mk.injEq] at hfound
  obtain ⟨year, _, ⟨hyear, rfl⟩, _, _, rfl, month, _, ⟨-, rfl⟩, _, _, rfl, day, _, ⟨-, rfl⟩,
    mark, _, ⟨hmark, rfl⟩, hour, _, ⟨-, rfl⟩, _, _, rfl, minute, _, ⟨-, rfl⟩, _, _, rfl,
    second, _, ⟨-, rfl⟩, _, rest, hread, offset, _, ⟨zone, hzone, rfl⟩, ⟨rfl, rfl⟩, rfl⟩ := hfound
  obtain ⟨fraction, hfraction, rfl⟩ := exists_of_fraction hread
  obtain ⟨hdate, rfl, rfl, hsecond⟩ := Parts.instant?_eq_some_iff.mp hinstant
  obtain ⟨-, ⟨hyearEq, rfl, rfl⟩, -⟩ := Parts.date?_eq_some_iff.mp hdate
  change instant.date.year = (year : Int) at hyearEq
  have hshort : instant.date.HasShortYear := ⟨by omega, by omega⟩
  obtain rfl : year = instant.date.year.toNat := by omega
  have hmem : mark ∈ ['T', 't', ' '] := by simpa [or_assoc] using hmark
  have hshows : Shows ⟨instant, offset⟩ _ := .intro hshort hmem hsecond.symm hfraction hzone
  simpa only [dateText, clockText, List.append_assoc, List.cons_append, List.nil_append,
    List.append_nil] using hshows

/-- What is shown is read. -/
theorem zoned?_of_shows (h : Shows zoned t) : zoned? t = some zoned := by
  obtain ⟨instant, offset⟩ := zoned
  obtain @⟨mark, second, f, z, hyear, hmark, hsecond, hfraction, hzone⟩ := h
  change countedSecond second = instant.time.second at hsecond
  have htime := instant.time.isTime
  have hsecondLt := lt_of_countedSecond hsecond
  have hmarkRead : ∀ rest, oneOf (fun c => c == 'T' || c == 't' || c == ' ') (mark :: rest) =
      some (mark, rest) := fun rest =>
    oneOf_eq_some_iff.mpr ⟨by simpa [or_assoc] using hmark, rfl⟩
  have hzoneRead : zone z = some (offset, []) :=
    zone_eq_some_iff.mpr ⟨z, hzone, (List.append_nil z).symm⟩
  have hparts : parts (dateText instant.date ++ mark ::
      (clockText instant.time.hour instant.time.minute second ++ (f ++ z))) =
        some ((⟨instant.date.year, instant.date.month, instant.date.day, instant.time.hour,
          instant.time.minute, second, none⟩, offset), []) := by
    simp only [parts, dateText, clockText, List.append_assoc, List.cons_append]
    rw [bind_of_some (number_fourDigits hyear.toNat_lt _), bind_of_some (literal_cons _ _),
      bind_of_some (number_twoDigits instant.date.month_lt _), bind_of_some (literal_cons _ _),
      bind_of_some (number_twoDigits instant.date.day_lt _), bind_of_some (hmarkRead _),
      bind_of_some (number_twoDigits (by omega) _), bind_of_some (literal_cons _ _),
      bind_of_some (number_twoDigits (by omega) _), bind_of_some (literal_cons _ _),
      bind_of_some (number_twoDigits hsecondLt _), bind_of_some (fraction_append hfraction hzone),
      bind_of_some hzoneRead, hyear.toNat_eq]
    rfl
  have hweekDay : ∀ weekDay ∈ (none : Option Nat), weekDay = instant.date.weekDay := by
    rintro _ ⟨⟩
  have hinstant := Parts.instant?_eq_some hyear hsecond hweekDay
  exact Option.bind_eq_some_iff.mpr ⟨_, whole_eq_some_iff.mpr hparts,
    Option.bind_eq_some_iff.mpr ⟨instant, hinstant, rfl⟩⟩

end Internet

/-! ## The mail form -/

namespace Mail

variable {zoned : ZonedInstant} {t rest : Text}

/-! ### Pieces of the mail form -/

/-- The weekday is read as the one that is shown, if it is there at all. -/
theorem weekDay?_append {n : Nat} {name : Text} (h : ShowsWeekDay n name)
    (hrest : name = [] → ∀ c ∈ rest.head?, c.isAlpha = false) :
    ∃ found : Option Nat, (∀ weekDay ∈ found, weekDay = n) ∧
      weekDay? (name ++ rest) = some (found, rest) := by
  rcases h with rfl | ⟨name, hname, rfl⟩
  · have hread : Reader.name 3 Scale.weekDayNames.short rest = none := by
      apply Option.eq_none_iff_forall_ne_some.mpr
      rintro ⟨i, left⟩ heq
      obtain ⟨u, hspells, rfl⟩ := weekDayName_eq_some_iff.mp heq
      obtain ⟨c, u, rfl, hletter⟩ := hspells.exists_cons areNames_weekDays
      rw [hrest rfl c rfl] at hletter
      cases hletter
    refine ⟨none, by rintro _ ⟨⟩, ?_⟩
    rw [List.nil_append, weekDay?, hread]
  · have hread : Reader.name 3 Scale.weekDayNames.short (name ++ ',' :: rest) =
        some (n, ',' :: rest) := weekDayName_eq_some_iff.mpr ⟨name, hname, rfl⟩
    refine ⟨some n, by rintro _ ⟨⟩; rfl, ?_⟩
    rw [List.append_assoc, List.singleton_append, weekDay?, hread]
    change (literal [','] (',' :: rest)).map _ = _
    rw [literal_cons]
    rfl

/-- Blanks may stand before and behind the weekday. -/
theorem exists_weekDay_bind {n : Nat} {name gap : Text} (h : ShowsWeekDay n name)
    (hgap : IsGap gap) (hrest : ∃ c, rest.head? = some c ∧ c.isDigit = true) :
    ∃ found : Option Nat, (∀ weekDay ∈ found, weekDay = n) ∧
      ∀ {α : Type} (next : Option Nat → Reader α),
        (do
          blanks
          let weekDay ← weekDay?
          blanks
          next weekDay : Reader α) (name ++ (gap ++ rest)) = next found rest := by
  obtain ⟨d, hd, hdigit⟩ := hrest
  have hstart : StartsVisible rest := ⟨d, hd, isBlank_eq_false_of_visible (Or.inl hdigit)⟩
  have hletter : ∀ c ∈ rest.head?, c.isAlpha = false := by
    intro c hc
    obtain rfl : d = c := Option.some.inj (hd.symm.trans hc)
    exact isAlpha_eq_false_of_isDigit hdigit
  by_cases hnil : name = []
  · obtain ⟨found, hfound, hread⟩ := weekDay?_append h fun _ => hletter
    refine ⟨found, hfound, fun next => ?_⟩
    subst hnil
    rw [List.nil_append] at hread ⊢
    rw [bind_of_some (blanks_gap hgap hstart), bind_of_some hread,
      bind_of_some (blanks_visible hstart)]
  · obtain ⟨found, hfound, hread⟩ :=
      weekDay?_append h fun heq => absurd heq hnil
    have hname : StartsVisible (name ++ (gap ++ rest)) := by
      rcases h with rfl | ⟨name, hname, rfl⟩
      · exact absurd rfl hnil
      · exact ((startsVisible_of_spells hname areNames_weekDays).append _).append _
    refine ⟨found, hfound, fun next => ?_⟩
    rw [bind_of_some (blanks_visible hname), bind_of_some hread,
      bind_of_some (blanks_gap hgap hstart)]

theorem exists_of_weekDay? {found : Option Nat} (h : weekDay? t = some (found, rest)) :
    ∃ name, (∃ i, ShowsWeekDay i name) ∧ t = name ++ rest := by
  unfold weekDay? at h
  split at h
  · next i left heq =>
      obtain ⟨⟨_, _⟩, hcomma, ⟨⟩⟩ := Option.map_eq_some_iff.mp h
      obtain ⟨u, hspells, rfl⟩ := weekDayName_eq_some_iff.mp heq
      obtain rfl := literal_eq_some_iff.mp hcomma
      exact ⟨u ++ [','], ⟨i, Or.inr ⟨u, hspells, rfl⟩⟩, (List.append_assoc _ _ _).symm⟩
  · cases h
    exact ⟨[], ⟨0, Or.inl rfl⟩, rfl⟩

theorem second_colon {n : Nat} (h : n < 100) (rest : Text) :
    second (':' :: (twoDigits n ++ rest)) = some (n, rest) := by
  unfold second
  rw [trimStart_of_head (by decide)]
  exact number_twoDigits h rest

theorem second_of_head (h : ∀ c ∈ (trimStart t).head?, c ≠ ':') : second t = some (0, t) := by
  unfold second
  split
  · next heq =>
      rw [heq] at h
      exact absurd rfl (h ':' rfl)
  · rfl

/-- Hour, minute and second are read up to a blank. -/
theorem exists_time_bind {time : TimeOfDay} (h : ShowsTime time t)
    (hrest : ∀ c ∈ (trimStart rest).head?, c ≠ ':') :
    ∃ sec, countedSecond sec = time.second ∧
      ∀ {α : Type} (next : Nat → Nat → Nat → Reader α),
        (do
          let hour ← number 2 2
          blanks
          literal [':']
          blanks
          let minute ← number 2 2
          let second ← second
          next hour minute second : Reader α) (t ++ rest) =
            next time.hour time.minute sec rest := by
  have htime := time.isTime
  have hhour : time.hour < 100 := by omega
  have hminute : time.minute < 100 := by omega
  have hcolon : ∀ rest, StartsVisible (':' :: rest) := fun rest => ⟨':', rfl, by decide⟩
  have hminuteStart : ∀ rest, StartsVisible (twoDigits time.minute ++ rest) :=
    (visible_twoDigits hminute).1.append
  cases h with
  | @second n hsecond =>
      have hlt := lt_of_countedSecond hsecond
      refine ⟨n, hsecond, fun next => ?_⟩
      simp only [clockText, List.append_assoc, List.cons_append]
      rw [bind_of_some (number_twoDigits hhour _), bind_of_some (blanks_visible (hcolon _)),
        bind_of_some (literal_cons _ _), bind_of_some (blanks_visible (hminuteStart _)),
        bind_of_some (number_twoDigits hminute _), bind_of_some (second_colon hlt _)]
  | minute hzero =>
      refine ⟨0, hzero.symm, fun next => ?_⟩
      simp only [List.append_assoc, List.cons_append]
      rw [bind_of_some (number_twoDigits hhour _), bind_of_some (blanks_visible (hcolon _)),
        bind_of_some (literal_cons _ _), bind_of_some (blanks_visible (hminuteStart _)),
        bind_of_some (number_twoDigits hminute _), bind_of_some (second_of_head hrest)]

section Offsets

variable {east : Int} (h : ShowsOffset ['+', '-'] [] east t)

include h

theorem startsVisible_offset : StartsVisible t ∧ ∀ c ∈ t.head?, c ≠ ':' := by
  have hall : ∀ c ∈ ['+', '-'], isBlank c = false ∧ c ≠ ':' := by simp [isBlank]
  obtain ⟨sign, hsign, _, _, -, -, -, rfl⟩ := h
  obtain ⟨hvisible, hcolon⟩ := hall sign hsign
  refine ⟨⟨sign, rfl, hvisible⟩, ?_⟩
  rintro c ⟨⟩
  exact hcolon

theorem offset_of_shows : Mail.offset t = some (east, []) := by
  obtain ⟨sign, hsign, hours, minutes, hhours, hminutes, rfl, rfl⟩ := h
  have hwanted : (sign == '+' || sign == '-') = true := by simpa using hsign
  have hletter : sign.isAlpha = false := by
    obtain rfl | rfl := List.mem_pair.mp hsign <;> rfl
  have hname : (sign :: (twoDigits hours ++ ([] ++ twoDigits minutes))).takeWhile Char.isAlpha =
      [] := by
    rw [List.takeWhile_cons, hletter, if_neg Bool.false_ne_true]
  have hlast := number_twoDigits (show minutes < 100 by omega) []
  rw [List.append_nil] at hlast
  rw [Mail.offset, hname]
  change numericOffset (sign :: (twoDigits hours ++ twoDigits minutes)) = _
  rw [numericOffset, bind_of_some (oneOf_eq_some_iff.mpr ⟨hwanted, rfl⟩),
    bind_of_some (number_twoDigits (by omega) _), bind_of_some hlast,
    bind_of_some (a := ()) (guard_eq_some_iff.mpr ⟨⟨hhours, hminutes⟩, rfl⟩)]
  rfl

/-- An offset is less than a day in either direction. -/
theorem lt_of_shows_offset : -86400 < east ∧ east < 86400 := by
  obtain ⟨sign, -, hours, minutes, hhours, hminutes, rfl, -⟩ := h
  simp only [secondsEast]
  split <;> constructor <;> omega

end Offsets

/-- Universal time is in a supported year wherever the local time has a short one. -/
theorem supported_of_hasShortYear {instant : Instant} (hyear : instant.date.HasShortYear)
    {east : Int} (h : -86400 < east ∧ east < 86400) :
    supportedSeconds.1 ≤ instant.seconds - east ∧ instant.seconds - east < supportedSeconds.2 := by
  have hlow := hyear.1
  have hhigh := hyear.2
  have hday := instant.date.dayOfYear_le
  have htime := instant.time.seconds_lt
  simp only [supportedSeconds, Instant.seconds, Date.dayNumber, Date.daysBeforeYear]
  omega

/-- A year of four digits is read in full. -/
theorem fullYear_fourDigits {n : Nat} (h : n < 10000) : fullYear (fourDigits n) = n :=
  toNat_fourDigits h

/-! ### The mail form as a whole -/

/-- A day of the month has a digit or two, wherever no digit follows. -/
theorem showsNumber_day {n : Nat} {day : Text} (hn : n < 100)
    (hday : day = twoDigits n ∨ day = ofNat n)
    (hrest : ∀ c ∈ rest.head?, c.isDigit = false) : ShowsNumber 1 2 n rest (day ++ rest) := by
  rcases hday with rfl | rfl
  · exact showsNumber_twoDigits hn rest
  · exact showsNumber_ofNat hn hrest

theorem ShowsTime.startsVisible {time : TimeOfDay} (h : ShowsTime time t) : StartsVisible t := by
  have htime := time.isTime
  have hstart := (visible_twoDigits (show time.hour < 100 by omega)).1
  cases h with
  | second => exact hstart.append _
  | minute => exact hstart.append _

/-- No digit follows where blanks do. -/
theorem IsSpace.isDigit_eq {gap : Text} (h : IsSpace gap) (rest : Text) :
    ∀ c ∈ (gap ++ rest).head?, c.isDigit = false := by
  intro c hc
  rw [List.head?_append_of_ne_nil _ h.1] at hc
  apply Bool.eq_false_iff.mpr
  intro hdigit
  have hblank := h.2 c (List.mem_of_mem_head? hc)
  rw [isBlank_eq_false_of_visible (Or.inl hdigit)] at hblank
  cases hblank

/-- The parts of a plain spelling are read, the second as it is written and the weekday if it is
there. -/
theorem exists_parts {instant : Instant} {east : Int} (h : Shows ⟨instant, east⟩ t) :
    ∃ second weekDay?, countedSecond second = instant.time.second ∧
      (∀ weekDay ∈ weekDay?, weekDay = instant.date.weekDay) ∧
      parts t = some ((⟨instant.date.year, instant.date.month, instant.date.day,
        instant.time.hour, instant.time.minute, second, weekDay?⟩, east), []) := by
  obtain @⟨weekDay, gap, day, first, month, second, third, time, fourth, zone, hyear, hweekDay,
    hgap, hday, hfirst, hmonth, hsecond, hthird, htime, hfourth, hzone⟩ := h
  have hmonthLow := instant.date.isDate.1
  have hyearStart := (visible_fourDigits hyear.toNat_lt).1
  have hmonthStart := startsVisible_of_spells hmonth areNames_months
  obtain ⟨hzoneStart, hzoneColon⟩ := startsVisible_offset hzone
  have hdayShows : ∀ rest, ShowsNumber 1 2 instant.date.day (first ++ rest)
      (day ++ (first ++ rest)) := fun rest =>
    showsNumber_day instant.date.day_lt hday (hfirst.isDigit_eq rest)
  have hmonthRead : ∀ rest, Reader.name 3 Scale.monthNames.short (month ++ rest) =
      some (instant.date.month - 1, rest) := fun rest =>
    (name_eq_some_iff areNames_months length_months).mpr ⟨month, hmonth, rfl⟩
  have hyearRead : ∀ rest, digits 2 (fourDigits instant.date.year.toNat ++ (third ++ rest)) =
      some (fourDigits instant.date.year.toNat, third ++ rest) := fun rest =>
    digits_eq_some_iff.mpr ⟨show 2 ≤ 4 by decide,
      fun c hc => isDigit_of_mem_fourDigits hyear.toNat_lt hc, hthird.isDigit_eq rest, rfl⟩
  have htimeStop : ∀ c ∈ (trimStart (fourth ++ zone)).head?, c ≠ ':' := by
    rw [trimStart_gap_append hfourth.2, trimStart_eq_self hzoneStart.isBlank_eq]
    exact hzoneColon
  obtain ⟨sec, hsec, htimeNext⟩ := exists_time_bind htime htimeStop
  have hdigit := (hdayShows (month ++ (second ++ (fourDigits instant.date.year.toNat ++
    (third ++ (time ++ (fourth ++ zone))))))).exists_isDigit Nat.one_pos
  obtain ⟨found, hfound, hnext⟩ := exists_weekDay_bind hweekDay hgap hdigit
  refine ⟨sec, found, hsec, hfound, ?_⟩
  rw [parts, hnext, bind_of_some (number_eq_some_iff.mpr (hdayShows _)),
    bind_of_some (someBlanks_space hfirst (hmonthStart.append _)), bind_of_some (hmonthRead _),
    bind_of_some (someBlanks_space hsecond (hyearStart.append _)), bind_of_some (hyearRead _),
    bind_of_some (someBlanks_space hthird (htime.startsVisible.append _)), htimeNext,
    bind_of_some (someBlanks_space hfourth hzoneStart), bind_of_some (offset_of_shows hzone),
    fullYear_fourDigits hyear.toNat_lt, hyear.toNat_eq, Nat.sub_add_cancel hmonthLow]
  rfl

/-- What is shown is read. -/
theorem zoned?_of_shows (h : Shows zoned t) : zoned? t = some zoned := by
  obtain ⟨instant, east⟩ := zoned
  obtain ⟨second, weekDay?, hsecond, hweekDay, hparts⟩ := exists_parts h
  obtain ⟨hyear, -, -, -, -, -, -, -, -, -, hzone⟩ := h
  have hinstant := Parts.instant?_eq_some hyear hsecond hweekDay
  have hsupported := supported_of_hasShortYear hyear (lt_of_shows_offset hzone)
  refine Option.bind_eq_some_iff.mpr ⟨_, hparts, ?_⟩
  refine Option.bind_eq_some_iff.mpr ⟨(), (Option.guard_eq_some' ()).mpr rfl, ?_⟩
  refine Option.bind_eq_some_iff.mpr ⟨instant, hinstant, ?_⟩
  exact Option.bind_eq_some_iff.mpr ⟨(), (Option.guard_eq_some' ()).mpr hsupported, rfl⟩

/-- What is read starts like a mail form. -/
theorem opens_of_zoned? (h : zoned? t = some zoned) : Opens t := by
  obtain ⟨⟨⟨found, east⟩, left⟩, hparts, -⟩ := Option.bind_eq_some_iff.mp h
  simp only [parts, bind_eq_some_iff] at hparts
  obtain ⟨_, _, hread, weekDay, _, hreadWeekDay, _, _, hreadAfter, day, _, hday, _, _, hspace,
    -⟩ := hparts
  obtain ⟨before, hbefore, -, rfl⟩ := blanks_eq_some_iff.mp hread
  obtain ⟨name, hname, rfl⟩ := exists_of_weekDay? hreadWeekDay
  obtain ⟨after, hafter, -, rfl⟩ := blanks_eq_some_iff.mp hreadAfter
  obtain ⟨hdigits, hleast, hmost, -, -⟩ := number_eq_some_iff.mp hday
  obtain ⟨_ | ⟨c, gap⟩, hne, hgap, -, rfl⟩ := someBlanks_eq_some_iff.mp hspace
  · exact absurd rfl hne
  · exact .intro hbefore hname hafter hdigits hleast hmost (isGap_cons.mp hgap).1

end Mail

end Timestamp

end Timetable
