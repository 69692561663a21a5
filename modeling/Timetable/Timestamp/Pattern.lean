import Timetable.Timestamp.Reader

/-!
# Patterns

In a format a percent sign and a letter stand for a part of a date or a time. It is a
pattern, a list of pieces that a text has to match from its first character to its last.
Numbers may have blanks before them and a blank in a pattern stands for any number of
blanks, but literal text and names are matched on the spot.
-/

namespace Timetable.Timestamp

/-- The hour on a clock of twelve hours, the first of which is 12. -/
def dialHour (hour : Nat) : Nat := if hour % 12 = 0 then 12 else hour % 12

/-- The parts of a date and a time that are shown by a number of one or two digits. -/
inductive NumberPart where
  | month
  | day
  /-- The hour from 0 to 23. -/
  | hour
  /-- The hour from 1 to 12 of a half of the day. -/
  | clockHour
  | minute
  | second
deriving DecidableEq

/-- The parts of a date and a time that are shown by a name. -/
inductive NamePart where
  /-- The half of the day, AM or PM. -/
  | half
  | weekDay
  | month
deriving DecidableEq

/-- The number that shows the part of an instant. How its second is written is given apart. -/
def NumberPart.shown (instant : Instant) (second : Nat) : NumberPart → Nat
  | month => instant.date.month
  | day => instant.date.day
  | hour => instant.time.hour
  | clockHour => dialHour instant.time.hour
  | minute => instant.time.minute
  | .second => second

namespace NamePart

def names : NamePart → List Text
  | half => ["am".toList, "pm".toList]
  | weekDay => Scale.weekDayNames.short
  | month => Scale.monthNames.short

/-- The number of letters of each name. -/
def length : NamePart → Nat
  | half => 2
  | weekDay => 3
  | month => 3

/-- The place of the name that shows the part of an instant. -/
def shown (instant : Instant) : NamePart → Nat
  | half => instant.time.hour / 12
  | weekDay => instant.date.weekDay
  | month => instant.date.month - 1

end NamePart

/-- A piece of a pattern. -/
inductive Piece where
  | year
  | number (part : NumberPart)
  | name (part : NamePart)
  | blanks
  | literal (c : Char)
deriving DecidableEq

/-- The pieces of a timestamp in order. -/
abbrev Pattern := List Piece

namespace Piece

/-- The piece that a letter stands for behind a percent sign. -/
def ofLetter? : Char → Option Piece
  | 'Y' => some year
  | 'm' => some (number .month)
  | 'd' => some (number .day)
  | 'e' => some (number .day)
  | 'H' => some (number .hour)
  | 'I' => some (number .clockHour)
  | 'M' => some (number .minute)
  | 'S' => some (number .second)
  | 'p' => some (name .half)
  | 'a' => some (name .weekDay)
  | 'b' => some (name .month)
  | _ => none

/-- The number by which a piece shows an instant; blanks and literal text show nothing. -/
def shown (instant : Instant) (second : Nat) : Piece → Int
  | year => instant.date.year
  | number part => part.shown instant second
  | name part => part.shown instant
  | blanks => 0
  | literal _ => 0

open Reader

/-- A number of one or two digits. -/
def shortNumber : Reader Nat := do
  Reader.blanks
  Reader.number 1 2

/-- A year of up to four digits, or of any number of digits behind a sign. -/
def signedYear : Reader Int := fun t =>
  match Text.trimStart t with
  | '+' :: rest => (digits 1 rest).map fun read => ((Text.toNat read.1 : Int), read.2)
  | '-' :: rest => (digits 1 rest).map fun read => (-(Text.toNat read.1 : Int), read.2)
  | rest => (Reader.number 1 4 rest).map fun read => ((read.1 : Int), read.2)

/-- The number that a piece shows at the front of a text. -/
def read : Piece → Reader Int
  | year => signedYear
  | number _ => do
    let n ← shortNumber
    pure n
  | name part => do
    let i ← Reader.name part.length part.names
    pure i
  | blanks => do
    Reader.blanks
    pure 0
  | literal c => do
    Reader.literal [c]
    pure 0

end Piece

/-- Pieces with the numbers that they have been read as. -/
abbrev Findings := List (Piece × Int)

namespace Findings

variable (found : Findings)

/-- The date of the parts that have been found, if it is one of a supported year. -/
def date? : Option Date := do
  let year ← found.lookup .year
  let month ← found.lookup (.number .month) <|> (found.lookup (.name .month)).map (· + 1)
  let day ← found.lookup (.number .day)
  guard (IsSupportedYear year)
  Date.of? year month.toNat day.toNat

/-- The hour of the day, or else the hour on a clock of twelve hours in a half of the day. -/
def hour? : Option Int :=
  found.lookup (.number .hour) <|> do
    let hour ← found.lookup (.number .clockHour)
    let half ← found.lookup (.name .half)
    pure (hour % 12 + 12 * half)

/-- The second as it is written, or 0. -/
def second : Nat := ((found.lookup (.number .second)).getD 0).toNat

/-- The time of the parts that have been found. -/
def time? : Option TimeOfDay := do
  let hour ← found.hour?
  let minute ← found.lookup (.number .minute)
  TimeOfDay.of? hour.toNat minute.toNat (countedSecond found.second)

end Findings

namespace Pattern

/-- The pattern of a format. -/
def ofFormat? : Text → Option Pattern
  | [] => some []
  | ['%'] => none
  | '%' :: letter :: rest => do
    let piece ← Piece.ofLetter? letter
    let pattern ← ofFormat? rest
    pure (piece :: pattern)
  | c :: rest => do
    let pattern ← ofFormat? rest
    pure ((if Text.isBlank c then .blanks else .literal c) :: pattern)

/-- What the pieces of a pattern are read as in a text that it fits. -/
def findings? (pattern : Pattern) (t : Text) : Option Findings :=
  (Reader.whole (pattern.mapM Piece.read) t).map pattern.zip

/-- What the pieces of a pattern show of an instant. -/
def findings (pattern : Pattern) (instant : Instant) (second : Nat) : Findings :=
  pattern.map fun piece => (piece, piece.shown instant second)

/-- The instant of a text that fits a pattern of a date and a time. All pieces have to show
this instant. -/
def instant? (pattern : Pattern) (t : Text) : Option Instant := do
  let found ← pattern.findings? t
  let date ← found.date?
  let time ← found.time?
  guard (found = pattern.findings ⟨date, time⟩ found.second)
  pure ⟨date, time⟩

/-- The date of a text that fits a pattern of a date alone. -/
def date? (pattern : Pattern) (t : Text) : Option Date := do
  let found ← pattern.findings? t
  let date ← found.date?
  guard (found = pattern.findings date.midnight 0)
  pure date

end Pattern

end Timetable.Timestamp
