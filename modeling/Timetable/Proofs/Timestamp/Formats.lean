import Timetable.Proofs.Timestamp.Forms
import Timetable.Proofs.Timestamp.Patterns

/-!
# Renderings by format

The formats of a date and a time are tried in their order. A rendering by one of them is refused
by the ones that come before it, and shows its own instant alone. A date by itself is refused by
all of them, and a printed time with a word that is no weekday is, too.
-/

namespace Timetable.Timestamp

open Text

namespace Pattern

/-! ## Formats in their order -/

/-- The patterns of the formats of a date and a time. -/
def all : List Pattern :=
  [dateTime clock [], dateTime clock universal, dateTime halfDayClock [],
    dateTime halfDayClock universal, isoDate ++ .literal 'T' :: clock,
    isoDate ++ [.blanks, .number .hour, .literal ':', .number .minute],
    .name .weekDay :: .blanks :: printed]

/-- A format of a date and a time, by its pattern. -/
def IsFormat (format : Text) (pattern : Pattern) : Prop :=
  ofFormat? format = some pattern ∧ pattern.TellsDate ∧ pattern.TellsTime

instance (format : Text) (pattern : Pattern) : Decidable (IsFormat format pattern) :=
  inferInstanceAs (Decidable (_ ∧ _))

theorem isFormat_formats : List.Forall₂ IsFormat formats all := by
  repeat' first | exact .nil | refine .cons (by decide) ?_

/-- What is found in a text by the first of some patterns by which it shows an instant. -/
inductive Finds (t : Text) : Option Instant → List Pattern → Prop
  | nil : Finds t none []
  | here {instant pattern patterns} (h : pattern.ShowsInstant instant t) :
      Finds t (some instant) (pattern :: patterns)
  | there {found pattern patterns} (h : ∀ instant, ¬pattern.ShowsInstant instant t)
      (tail : Finds t found patterns) : Finds t found (pattern :: patterns)

variable {pattern : Pattern} {instant : Instant} {t : Text}

theorem showsInstant_of_shows (hsecond : .number .second ∈ pattern ∨ instant.time.second = 0)
    (h : pattern.Shows instant instant.time.second t) : pattern.ShowsInstant instant t :=
  ⟨_, countedSecond_eq instant.time.isTime.2.2, hsecond, h⟩

/-- A pattern that the text does not match is passed over. -/
theorem Finds.skip {found : Option Instant} {patterns : List Pattern}
    (h : ∀ instant second, ¬pattern.Shows instant second t) (tail : Finds t found patterns) :
    Finds t found (pattern :: patterns) :=
  .there (fun instant ⟨second, _, _, hshows⟩ => h instant second hshows) tail

theorem hasTime_self (instant : Instant) : HasTime instant instant.time.second instant.time :=
  ⟨rfl, rfl, rfl⟩

/-- An instant is its date and its time, as long as the second is below 60. -/
theorem eq_of_hasTime {other : Instant} {second : Nat} (hdate : other.date = instant.date)
    (htime : HasTime other second instant.time)
    (hsecond : countedSecond second = other.time.second) : other = instant := by
  obtain ⟨hhour, hminute, rfl⟩ := htime
  rw [countedSecond_eq instant.time.isTime.2.2] at hsecond
  exact Instant.ext hdate (TimeOfDay.ext hhour hminute hsecond.symm)

/-! ## Dates with times -/

section DateTime

variable (hyear : instant.date.HasShortYear)

theorem not_shows_universal_halfText {second hour : Nat} (rest : Text) :
    ¬Shows instant second universal (' ' :: (halfText hour ++ rest)) := by
  have hhead : ∀ c ∈ (halfText hour ++ rest).head?, isBlank c = false ∧ c ≠ 'U' := by
    unfold halfText
    split
    · rintro c ⟨⟩
      decide
    · rintro c ⟨⟩
      decide
  rw [universal, shows_blanks_blank_iff fun c hc => (hhead c hc).1]
  exact not_shows_literal fun c hc => (hhead c hc).2

include hyear

theorem finds_dateTime {note : Text} (hnote : IsNote note) :
    Finds (dateText instant.date ++ ' ' :: (timeText instant.time ++ note)) (some instant) all := by
  rcases hnote with rfl | rfl
  · have hshows := (shows_dateTime_iff hyear).mpr ⟨rfl, hasTime_self instant, .nil⟩
    exact .here (showsInstant_of_shows (Or.inl (by decide)) hshows)
  · have hshows := (shows_dateTime_iff hyear).mpr ⟨rfl, hasTime_self instant, shows_universal⟩
    refine .skip (fun other second hother => ?_)
      (.here (showsInstant_of_shows (Or.inl (by decide)) hshows))
    exact not_shows_nil ((shows_dateTime_iff hyear).mp hother).2.2

theorem finds_dateHalfDay {note : Text} (hnote : IsNote note) :
    Finds (dateText instant.date ++ ' ' :: (halfDayText instant.time ++ note)) (some instant)
      all := by
  refine .skip (fun other second hother => ?_) (.skip (fun other second hother => ?_) ?_)
  · exact not_shows_nil (shows_of_shows_clock_halfDayText hyear hother)
  · exact not_shows_universal_halfText _ (shows_of_shows_clock_halfDayText hyear hother)
  · rcases hnote with rfl | rfl
    · have hshows := (shows_dateHalfDay_iff hyear).mpr ⟨rfl, hasTime_self instant, .nil⟩
      exact .here (showsInstant_of_shows (Or.inl (by decide)) hshows)
    · have hshows :=
        (shows_dateHalfDay_iff hyear).mpr ⟨rfl, hasTime_self instant, shows_universal⟩
      refine .skip (fun other second hother => ?_)
        (.here (showsInstant_of_shows (Or.inl (by decide)) hshows))
      exact not_shows_nil ((shows_dateHalfDay_iff hyear).mp hother).2.2

theorem finds_dateMarkTime :
    Finds (dateText instant.date ++ 'T' :: timeText instant.time) (some instant) all := by
  have hmark : ∀ c ∈ ('T' :: timeText instant.time).head?,
      isBlank c = false ∧ c.isDigit = false := by
    rintro c ⟨⟩
    decide
  have htime : Shows instant instant.time.second (clock ++ []) (timeText instant.time ++ []) :=
    shows_timeText_iff.mpr ⟨hasTime_self instant, .nil⟩
  rw [List.append_nil, List.append_nil] at htime
  have hmarked : Shows instant instant.time.second (.literal 'T' :: clock)
      ('T' :: timeText instant.time) := shows_literal_iff.mpr htime
  have hshows := (shows_isoDate_iff hyear).mpr ⟨rfl, hmarked⟩
  refine .skip ?_ (.skip ?_ (.skip ?_ (.skip ?_
    (.here (showsInstant_of_shows (Or.inl (by decide)) hshows)))))
  all_goals exact fun _ _ => not_shows_clock hyear hmark

theorem finds_dateMinute (hsecond : instant.time.second = 0) :
    Finds (dateText instant.date ++
      ' ' :: (twoDigits instant.time.hour ++ ':' :: twoDigits instant.time.minute))
        (some instant) all := by
  have htime := instant.time.isTime
  have hhour : instant.time.hour < 100 := by omega
  have hminute : instant.time.minute < 100 := by omega
  have hstart := (visible_twoDigits hhour).1.append (':' :: twoDigits instant.time.minute)
  have hread := Piece.takes_twoDigits hminute .minute []
  rw [List.append_nil] at hread
  have hclock : Shows instant instant.time.second
      [.blanks, .number .hour, .literal ':', .number .minute]
      (' ' :: (twoDigits instant.time.hour ++ ':' :: twoDigits instant.time.minute)) := by
    rw [shows_blanks_blank_iff hstart.isBlank_eq,
      shows_cons_iff (Piece.takes_twoDigits hhour _ _), shows_literal_iff, shows_cons_iff hread]
    exact ⟨rfl, rfl, .nil⟩
  have hshows := (shows_isoDate_iff hyear).mpr ⟨rfl, hclock⟩
  refine .skip ?_ (.skip ?_ (.skip ?_ (.skip ?_ (.skip (fun other second hother => ?_)
    (.here (showsInstant_of_shows (Or.inr hsecond) hshows))))))
  case refine_5 =>
    exact not_shows_literal (by rintro c ⟨⟩; decide) ((shows_isoDate_iff hyear).mp hother).2
  all_goals exact fun _ _ => not_shows_second hyear hhour hminute

/-- No format of a date and a time fits a date by itself. -/
theorem finds_dateText : Finds (dateText instant.date) none all := by
  have hend : ∀ c ∈ ([] : Text).head?, isBlank c = false ∧ c.isDigit = false := by
    rintro c ⟨⟩
  have hletter : ∀ c ∈ (dateText instant.date ++ []).head?, c.isAlpha = false := by
    rintro c ⟨⟩
    apply isAlpha_eq_false_of_isDigit
    exact isDigit_of_mem_fourDigits hyear.toNat_lt List.mem_cons_self
  rw [← List.append_nil (dateText instant.date)]
  refine .skip ?_ (.skip ?_ (.skip ?_ (.skip ?_ (.skip (fun other second hother => ?_)
    (.skip ?_ (.skip (fun other second => ?_) .nil))))))
  case refine_5 =>
    exact not_shows_literal (by rintro c ⟨⟩) ((shows_isoDate_iff hyear).mp hother).2
  case refine_7 => exact not_shows_cons fun _ _ => Piece.not_takes_name hletter
  all_goals exact fun _ _ => not_shows_clock hyear hend

/-! ## Printed times -/

/-- A printed time is found by the right weekday or not at all. -/
theorem finds_printed {word month : Text} (hne : word ≠ []) (hword : ∀ c ∈ word, c.isAlpha = true)
    (hmonth : Spells Scale.monthNames.short (instant.date.month - 1) month) :
    Finds (word ++ ' ' :: printedText instant month) (some instant) all ∨
      Finds (word ++ ' ' :: printedText instant month) none all := by
  have hletter : ∀ c ∈ (word ++ ' ' :: printedText instant month).head?, c.isAlpha = true := by
    rw [List.head?_append_of_ne_nil _ hne]
    exact fun c hc => hword c (List.mem_of_mem_head? hc)
  have hskip : ∀ {found patterns pattern}, Finds (word ++ ' ' :: printedText instant month) found
      patterns → Finds (word ++ ' ' :: printedText instant month) found
        ((isoDate ++ pattern) :: patterns) :=
    Finds.skip fun _ _ => not_shows_isoDate_letter hletter
  by_cases hshows : ShowsInstant (.name .weekDay :: .blanks :: printed) instant
    (word ++ ' ' :: printedText instant month)
  · exact Or.inl (hskip (hskip (hskip (hskip (hskip (hskip (.here hshows)))))))
  · refine Or.inr (hskip (hskip (hskip (hskip (hskip (hskip (.there ?_ .nil)))))))
    rintro other ⟨second, hsecond, hpiece, hother⟩
    obtain ⟨hdate, htime⟩ := eq_of_shows_weekDay_printed hyear hword hmonth hother
    obtain rfl := eq_of_hasTime hdate htime hsecond
    exact hshows ⟨second, hsecond, hpiece, hother⟩

end DateTime

end Pattern

end Timetable.Timestamp
