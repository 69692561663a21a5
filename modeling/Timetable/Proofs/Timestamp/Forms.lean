import Timetable.Proofs.Timestamp.Documented

/-!
# Renderings in the forms with a zone

A rendering of the Internet form or of the mail form is a text of this form. No other
rendering is: the Internet form wants a zone or a fraction in the twentieth place, behind four
digits at the front, and the mail form wants a comma behind its weekday and a blank behind one
or two digits of its day.
-/

namespace Timetable.Timestamp

open Text

/-- Years of four digits are supported. -/
theorem isSupportedYear_of_hasShortYear {date : Date} (h : date.HasShortYear) :
    IsSupportedYear date.year := by
  obtain ⟨hlow, hhigh⟩ := h
  exact ⟨by omega, by omega⟩

theorem countedSecond_eq {second : Nat} (h : second < 60) : countedSecond second = second :=
  if_neg h.ne

/-- The second of a time is written as it is, or as 60. -/
theorem lt_of_countedSecond {second : Nat} {time : TimeOfDay}
    (h : countedSecond second = time.second) : second < 100 := by
  have htime := time.isTime.2.2
  unfold countedSecond at h
  split at h <;> omega

/-- What stands from the twentieth place on is what follows a date and a time. -/
theorem drop_clockText (date : Date) (mark : Char) (hour minute second : Nat) (rest : Text) :
    (dateText date ++ mark :: (clockText hour minute second ++ rest)).drop 19 = rest := rfl

theorem mem_take_append {n : Nat} {c : Char} {s rest : Text} (h : s.length < n) :
    c ∈ (s ++ c :: rest).take n := by
  obtain ⟨k, rfl⟩ := Nat.exists_eq_add_of_lt h
  rw [List.take_append, show s.length + k + 1 - s.length = k + 1 by omega]
  exact List.mem_append_right _ List.mem_cons_self

theorem ne_of_isDigit {c d : Char} (hc : c.isDigit = true) (hd : d.isDigit = false) : c ≠ d := by
  rintro rfl
  rw [hc] at hd
  cases hd

theorem isDigit_of_mem_take_dateText {date : Date} (hyear : date.HasShortYear) (rest : Text) :
    ∀ c ∈ (dateText date ++ rest).take 4, c.isDigit = true := fun _ hc =>
  isDigit_of_mem_fourDigits hyear.toNat_lt hc

/-! ## The Internet form -/

namespace Internet

variable {zoned : ZonedInstant} {t : Text}

/-- The characters that may stand behind the second. -/
def endings : List Char := ['.', 'Z', 'z', '+', '-', '\u2212']

/-- A text of the Internet form starts with four digits. -/
theorem Shows.isDigit_of_mem_take (h : Shows zoned t) : ∀ c ∈ t.take 4, c.isDigit = true := by
  obtain ⟨hyear, -, -, -, -⟩ := h
  exact isDigit_of_mem_take_dateText hyear _

/-- The zone and the fraction before it start with characters of their own. -/
theorem exists_mem_endings {offset : Int} {fraction zone : Text} (hfraction : IsFraction fraction)
    (hzone : ShowsZone offset zone) : ∃ c ∈ endings, (fraction ++ zone).head? = some c := by
  have hletters : ∀ u ∈ [['Z'], ['z']], ∃ c ∈ endings, u.head? = some c := by simp [endings]
  have hsigns : ∀ c ∈ ['+', '-', '\u2212'], c ∈ endings := by simp [endings]
  rcases hfraction with rfl | ⟨ds, -, -, rfl⟩
  · rcases hzone with ⟨-, hletter⟩ | ⟨sign, hsign, _, _, -, -, -, rfl⟩
    · exact hletters zone hletter
    · exact ⟨sign, hsigns sign hsign, rfl⟩
  · exact ⟨'.', List.mem_cons_self, rfl⟩

/-- A text that has none of these in the twentieth place is not of the Internet form. -/
theorem not_shows_of_drop (h : ∀ c ∈ (t.drop 19).head?, c ∉ endings) : ¬Shows zoned t := by
  rintro ⟨-, -, -, hfraction, hzone⟩
  obtain ⟨c, hc, hhead⟩ := exists_mem_endings hfraction hzone
  rw [drop_clockText] at h
  exact h c hhead hc

theorem not_shows_of_length_le (h : t.length ≤ 19) : ¬Shows zoned t := by
  apply not_shows_of_drop
  rw [List.drop_eq_nil_of_le h]
  rintro c ⟨⟩

/-- Neither is one with anything but a digit in the first four places. -/
theorem not_shows_of_mem_take {c : Char} (hc : c ∈ t.take 4) (hdigit : c.isDigit = false) :
    ¬Shows zoned t := fun h =>
  ne_of_isDigit (h.isDigit_of_mem_take c hc) hdigit rfl

theorem not_shows_letter (hne : t ≠ []) (h : ∀ c ∈ t.head?, c.isAlpha = true) :
    ¬Shows zoned t := by
  obtain ⟨c, rest, rfl⟩ := List.exists_cons_of_ne_nil hne
  exact not_shows_of_mem_take List.mem_cons_self (isDigit_eq_false_of_isAlpha (h c rfl))

theorem shows_rendering {instant : Instant} (hyear : instant.date.HasShortYear) {mark : Char}
    (hmark : mark = 'T' ∨ mark = ' ') {fraction zone : Text} {offset : Int}
    (hfraction : IsFraction fraction) (hzone : ShowsZone offset zone) :
    Shows ⟨instant, offset⟩
      (dateText instant.date ++ mark :: (timeText instant.time ++ (fraction ++ zone))) := by
  have hmem : mark ∈ ['T', 't', ' '] := by
    rcases hmark with rfl | rfl <;> decide
  exact .intro hyear hmem (countedSecond_eq instant.time.isTime.2.2) hfraction hzone

end Internet

/-! ## The mail form -/

namespace Mail

variable {t : Text}

/-- A weekday starts with a letter, if there is one. -/
theorem ShowsWeekDay.eq_nil_of_head {weekDay : Nat} {name rest : Text}
    (h : ShowsWeekDay weekDay name) (hhead : ∀ c ∈ (name ++ rest).head?, c.isAlpha = false) :
    name = [] := by
  rcases h with rfl | ⟨name, hname, rfl⟩
  · rfl
  · obtain ⟨c, tail, rfl, hletter⟩ := hname.exists_cons areNames_weekDays
    rw [hhead c rfl] at hletter
    cases hletter

/-- A gap before what is not a blank is empty. -/
theorem eq_nil_of_isGap {gap rest : Text} (hgap : IsGap gap)
    (h : ∀ c ∈ (gap ++ rest).head?, isBlank c = false) : gap = [] := by
  cases gap with
  | nil => rfl
  | cons c gap =>
      have hblank := (isGap_cons.mp hgap).1
      rw [h c rfl] at hblank
      cases hblank

/-- A day of the month has two digits at most, so a text of the mail form does not start with
three of them. -/
theorem not_opens_digits (hne : t ≠ []) (h : ∀ c ∈ t.take 3, c.isDigit = true) : ¬Opens t := by
  have hhead : ∀ c ∈ t.head?, c.isDigit = true := fun c hc => by
    obtain ⟨rest, rfl⟩ := List.head?_eq_some_iff.mp (Option.mem_def.mp hc)
    exact h c List.mem_cons_self
  have hvisible : ∀ c ∈ t.head?, isBlank c = false := fun c hc =>
    isBlank_eq_false_of_visible (Or.inl (hhead c hc))
  have hnoLetter : ∀ c ∈ t.head?, c.isAlpha = false := fun c hc =>
    isAlpha_eq_false_of_isDigit (hhead c hc)
  intro hopens
  cases hopens with
  | intro hbefore hweekDay hafter _ _ hmost hblank =>
      obtain ⟨_, hweekDay⟩ := hweekDay
      obtain rfl := eq_nil_of_isGap hbefore hvisible
      obtain rfl := hweekDay.eq_nil_of_head hnoLetter
      obtain rfl := eq_nil_of_isGap hafter hvisible
      have hdigit := h _ (mem_take_append (Nat.lt_succ_of_le hmost))
      rw [isBlank_eq_false_of_visible (Or.inl hdigit)] at hblank
      cases hblank

/-- A text of the mail form does not start with a word and a blank: its weekday has a comma
behind it. -/
theorem not_opens_word {word : Text} (hne : word ≠ []) (hword : ∀ c ∈ word, c.isAlpha = true)
    (rest : Text) : ¬Opens (word ++ ' ' :: rest) := by
  generalize htext : word ++ ' ' :: rest = t
  have hhead : ∀ c ∈ t.head?, c.isAlpha = true := by
    rw [← htext, List.head?_append_of_ne_nil _ hne]
    exact fun c hc => hword c (List.mem_of_mem_head? hc)
  have hvisible : ∀ c ∈ t.head?, isBlank c = false := fun c hc =>
    isBlank_eq_false_of_visible (Or.inr (hhead c hc))
  have hdrop : t.dropWhile Char.isAlpha = ' ' :: rest := by
    rw [← htext, List.dropWhile_append_of_pos hword]
    rfl
  rintro ⟨hbefore, ⟨_, hweekDay⟩, hafter, hdigits, hleast, -, -⟩
  obtain rfl := eq_nil_of_isGap hbefore hvisible
  rcases hweekDay with rfl | ⟨name, hname, rfl⟩
  · obtain rfl := eq_nil_of_isGap hafter hvisible
    obtain ⟨d, day, rfl⟩ := List.exists_cons_of_ne_nil (List.ne_nil_of_length_pos hleast)
    exact ne_of_isDigit (hdigits d List.mem_cons_self)
      (isDigit_eq_false_of_isAlpha (hhead d rfl)) rfl
  · rw [List.nil_append, List.append_assoc,
      List.dropWhile_append_of_pos fun c hc => hname.isAlpha areNames_weekDays hc] at hdrop
    exact absurd (List.cons.inj hdrop).1 (by decide)

section Rendering

variable {instant : Instant} {weekDay day month zone : Text}

theorem shows_mailText {gap : Text} {offset : Int} (hyear : instant.date.HasShortYear)
    (hweekDay : ShowsWeekDay instant.date.weekDay weekDay) (hgap : IsGap gap)
    (hday : day = twoDigits instant.date.day ∨ day = ofNat instant.date.day)
    (hmonth : Spells Scale.monthNames.short (instant.date.month - 1) month)
    (hzone : ShowsOffset ['+', '-'] [] offset zone) :
    Shows ⟨instant, offset⟩ (weekDay ++ (gap ++ mailText instant day month zone)) := by
  have hspace : IsSpace [' '] := ⟨List.cons_ne_nil _ _, isGap_blank⟩
  have htime : ShowsTime instant.time (timeText instant.time) :=
    .second (countedSecond_eq instant.time.isTime.2.2)
  let zoned : ZonedInstant := ⟨instant, offset⟩
  have hshows : Shows zoned (weekDay ++ (gap ++ (day ++ ([' '] ++ (month ++ ([' '] ++
      (fourDigits instant.date.year.toNat ++ ([' '] ++ (timeText instant.time ++
        ([' '] ++ zone)))))))))) :=
    .intro hyear hweekDay hgap hday hspace hmonth hspace hspace htime hspace hzone
  exact hshows

theorem shows_rendering {offset : Int} (hyear : instant.date.HasShortYear)
    (hweekDay : IsWeekDayPart instant.date weekDay)
    (hday : day = twoDigits instant.date.day ∨ day = ofNat instant.date.day)
    (hmonth : Spells Scale.monthNames.short (instant.date.month - 1) month)
    (hzone : ShowsOffset ['+', '-'] [] offset zone) :
    Shows ⟨instant, offset⟩ (weekDay ++ mailText instant day month zone) := by
  rcases hweekDay with rfl | ⟨name, hname, rfl⟩
  · exact shows_mailText hyear (Or.inl rfl) isGap_nil hday hmonth hzone
  · have hshows := shows_mailText hyear (Or.inr ⟨name, hname, rfl⟩) isGap_blank hday hmonth hzone
    rw [List.append_assoc] at hshows ⊢
    exact hshows

/-- A rendering of the mail form has no four digits at its front. -/
theorem exists_mem_take (hweekDay : IsWeekDayPart instant.date weekDay)
    (hday : day = twoDigits instant.date.day ∨ day = ofNat instant.date.day) :
    ∃ c ∈ (weekDay ++ mailText instant day month zone).take 4, c.isDigit = false := by
  rcases hweekDay with rfl | ⟨name, hname, rfl⟩
  · have hlength : day.length ≤ 2 := by
      rcases hday with rfl | rfl
      · exact le_rfl
      · exact length_ofNat_le instant.date.day_lt
    exact ⟨' ', mem_take_append (hlength.trans_lt (by decide)), by decide⟩
  · obtain ⟨c, tail, rfl, hletter⟩ := hname.exists_cons areNames_weekDays
    exact ⟨c, List.mem_cons_self, isDigit_eq_false_of_isAlpha hletter⟩

end Rendering

end Mail

end Timetable.Timestamp
