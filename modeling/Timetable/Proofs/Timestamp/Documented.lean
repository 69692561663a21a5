import Timetable.Proofs.Timestamp.Renderings
import Timetable.Timestamp

/-!
# What parsers of dates and times are documented to do

The Internet form has one spelling up to the case of its letters, and a parser of it
takes this form alone. Of the mail form, which has many spellings, only the plain ones are
described, and how a text has to start. A parser that goes by a format matches a text
piece by piece, and yields the date and the time that all pieces show.
-/

namespace Timetable.Timestamp

open Text

/-! ## The Internet form -/

/-- The text shows a local time and its offset in the Internet form. -/
inductive Internet.Shows (zoned : ZonedInstant) : Text → Prop
  | intro {mark second fraction zone} (hyear : zoned.wallClock.date.HasShortYear)
      (hmark : mark ∈ ['T', 't', ' '])
      (hsecond : countedSecond second = zoned.wallClock.time.second)
      (hfraction : IsFraction fraction) (hzone : ShowsZone zoned.offset zone) :
      Shows zoned (dateText zoned.wallClock.date ++ mark ::
        (clockText zoned.wallClock.time.hour zoned.wallClock.time.minute second ++
          (fraction ++ zone)))

/-! ## The mail form -/

namespace Mail

/-- One blank or more. -/
def IsSpace (t : Text) : Prop := t ≠ [] ∧ IsGap t

/-- A name of the weekday with a comma behind it, or nothing. -/
def ShowsWeekDay (weekDay : Nat) (t : Text) : Prop :=
  t = [] ∨ ∃ name, Spells Scale.weekDayNames.short weekDay name ∧ t = name ++ [',']

/-- Hour, minute and second between colons. A second that is not shown is 0. -/
inductive ShowsTime (time : TimeOfDay) : Text → Prop
  | second {second} (h : countedSecond second = time.second) :
      ShowsTime time (clockText time.hour time.minute second)
  | minute (h : time.second = 0) :
      ShowsTime time (twoDigits time.hour ++ ':' :: twoDigits time.minute)

/-- The text shows a local time and its offset in the mail form, with a year of four digits and
without any comments. -/
inductive Shows (zoned : ZonedInstant) : Text → Prop
  | intro {weekDay gap day first month second third time fourth zone}
      (hyear : zoned.wallClock.date.HasShortYear)
      (hweekDay : ShowsWeekDay zoned.wallClock.date.weekDay weekDay) (hgap : IsGap gap)
      (hday : day = twoDigits zoned.wallClock.date.day ∨ day = ofNat zoned.wallClock.date.day)
      (hfirst : IsSpace first)
      (hmonth : Spells Scale.monthNames.short (zoned.wallClock.date.month - 1) month)
      (hsecond : IsSpace second) (hthird : IsSpace third)
      (htime : ShowsTime zoned.wallClock.time time) (hfourth : IsSpace fourth)
      (hzone : ShowsOffset ['+', '-'] [] zoned.offset zone) :
      Shows zoned (weekDay ++ (gap ++ (day ++ (first ++ (month ++ (second ++
        (fourDigits zoned.wallClock.date.year.toNat ++ (third ++ (time ++
          (fourth ++ zone))))))))))

/-- The text starts with a weekday or with none, and goes on with a day of one or two digits and
a blank. -/
inductive Opens : Text → Prop
  | intro {before weekDay after day c rest} (hbefore : IsGap before)
      (hweekDay : ∃ i, ShowsWeekDay i weekDay) (hafter : IsGap after)
      (hdigits : ∀ d ∈ day, d.isDigit = true) (hleast : 1 ≤ day.length)
      (hmost : day.length ≤ 2) (hblank : isBlank c = true) :
      Opens (before ++ (weekDay ++ (after ++ (day ++ c :: rest))))

end Mail

/-! ## Formats -/

/-- The text has a year at its front: up to four digits, or any number of them behind a sign. -/
inductive ShowsYear (rest : Text) : Int → Text → Prop
  | plain {n t} (h : ShowsNumber 1 4 n rest t) : ShowsYear rest n t
  | positive {ds} (hne : ds ≠ []) (hdigits : ∀ c ∈ ds, c.isDigit = true)
      (hstop : ∀ c ∈ rest.head?, c.isDigit = false) :
      ShowsYear rest (toNat ds) ('+' :: (ds ++ rest))
  | negative {ds} (hne : ds ≠ []) (hdigits : ∀ c ∈ ds, c.isDigit = true)
      (hstop : ∀ c ∈ rest.head?, c.isDigit = false) :
      ShowsYear rest (-(toNat ds : Int)) ('-' :: (ds ++ rest))

/-- A piece takes the front of a text for a number and leaves the rest. -/
inductive Piece.Takes (rest : Text) : Piece → Int → Text → Prop
  | year {gap y t} (hgap : IsGap gap) (h : ShowsYear rest y t) : Takes rest .year y (gap ++ t)
  | number {part gap t} {n : Nat} (hgap : IsGap gap) (h : ShowsNumber 1 2 n rest t) :
      Takes rest (.number part) n (gap ++ t)
  | name {part t} {i : Nat} (h : Spells part.names i t) : Takes rest (.name part) i (t ++ rest)
  | blanks {gap} (hgap : IsGap gap) (hstop : ∀ c ∈ rest.head?, isBlank c = false) :
      Takes rest .blanks 0 (gap ++ rest)
  | literal {c} : Takes rest (.literal c) 0 (c :: rest)

namespace Pattern

/-- The pieces take the text, one after the other, for what they show of an instant. -/
inductive Shows (instant : Instant) (second : Nat) : Pattern → Text → Prop
  | nil : Shows instant second [] []
  | cons {piece pattern t rest} (hpiece : piece.Takes rest (piece.shown instant second) t)
      (hrest : Shows instant second pattern rest) : Shows instant second (piece :: pattern) t

/-- The pattern has pieces for year, month and day. -/
def TellsDate (pattern : Pattern) : Prop :=
  .year ∈ pattern ∧ (.number .month ∈ pattern ∨ .name .month ∈ pattern) ∧ .number .day ∈ pattern

/-- The pattern has pieces for the hour and the minute. -/
def TellsTime (pattern : Pattern) : Prop :=
  (.number .hour ∈ pattern ∨ .number .clockHour ∈ pattern ∧ .name .half ∈ pattern) ∧
    .number .minute ∈ pattern

/-- The pattern has no pieces for parts of a time. -/
def TellsNoTime (pattern : Pattern) : Prop :=
  ∀ piece ∈ pattern,
    piece ∉ [.number .hour, .number .clockHour, .number .minute, .number .second, .name .half]

instance (pattern : Pattern) : Decidable pattern.TellsDate := inferInstanceAs (Decidable (_ ∧ _))

instance (pattern : Pattern) : Decidable pattern.TellsTime := inferInstanceAs (Decidable (_ ∧ _))

instance (pattern : Pattern) : Decidable pattern.TellsNoTime :=
  inferInstanceAs (Decidable (∀ piece ∈ pattern, _))

/-- The text shows the instant by a pattern. A second that is not shown is 0. -/
def ShowsInstant (pattern : Pattern) (instant : Instant) (t : Text) : Prop :=
  ∃ second, countedSecond second = instant.time.second ∧
    (.number .second ∈ pattern ∨ second = 0) ∧ pattern.Shows instant second t

end Pattern

/-! ## Parsers -/

/-- What is documented of parsers of dates and times. -/
structure Parsers.Documented (parsers : Parsers) : Prop where
  /-- The Internet form is read, and nothing else. -/
  internet_iff : ∀ zoned t, parsers.internet? t = some zoned ↔ Internet.Shows zoned t
  /-- Plain spellings of the mail form are read. -/
  mail_of_shows : ∀ zoned t, Mail.Shows zoned t → parsers.mail? t = some zoned
  /-- What is read as a mail form starts like one. -/
  opens_of_mail : ∀ zoned t, parsers.mail? t = some zoned → Mail.Opens t
  /-- By a format of a date and a time those of supported years are read that the text shows. -/
  instant_iff : ∀ format pattern, Pattern.ofFormat? format = some pattern →
    pattern.TellsDate → pattern.TellsTime → ∀ instant t,
      parsers.instant? format t = some instant ↔
        IsSupportedYear instant.date.year ∧ pattern.ShowsInstant instant t
  /-- By a format of a date alone those of supported years are read that the text shows. -/
  date_iff : ∀ format pattern, Pattern.ofFormat? format = some pattern →
    pattern.TellsDate → pattern.TellsNoTime → ∀ date t,
      parsers.date? format t = some date ↔
        IsSupportedYear date.year ∧ pattern.Shows date.midnight 0 t

end Timetable.Timestamp
