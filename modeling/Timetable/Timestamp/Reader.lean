import Timetable.Calendar.Instant

/-!
# Reading timestamps piece by piece

A reader takes what it wants from the front of a text and leaves the rest, or
fails. The parts of a timestamp are collected as they are read and make an
instant if the date and the time exist.
-/

namespace Timetable.Timestamp

/-- A step that reads from the front of a text. -/
abbrev Reader := StateT Text Option

namespace Reader

/-- The given text, as it stands. -/
def literal (wanted : Text) : Reader Unit := fun t =>
  (wanted.isPrefixOf? t).map fun rest => ((), rest)

/-- Any number of blanks. -/
def blanks : Reader Unit := fun t => some ((), Text.trimStart t)

/-- One blank or more. -/
def someBlanks : Reader Unit
  | c :: rest => if Text.isBlank c then some ((), Text.trimStart rest) else none
  | [] => none

/-- One character of a class. -/
def oneOf (wanted : Char → Bool) : Reader Char
  | c :: rest => if wanted c then some (c, rest) else none
  | [] => none

/-- All digits at the front, but at least `least` of them. -/
def digits (least : Nat) : Reader Text := fun t =>
  let found := t.takeWhile Char.isDigit
  if least ≤ found.length then some (found, t.drop found.length) else none

/-- The number of the digits at the front, at least `least` and at most `most` of them. -/
def number (least most : Nat) : Reader Nat := fun t =>
  let found := (t.take most).takeWhile Char.isDigit
  if least ≤ found.length then some (Text.toNat found, t.drop found.length) else none

/-- The place of a name in a list of names that have `length` letters each. -/
def name (length : Nat) (names : List Text) : Reader Nat := fun t =>
  (names.findIdx? fun name => Text.equalsIgnoringCase name (t.take length)).map fun i =>
    (i, t.drop length)

/-- The value of a reader that takes the whole text. -/
def whole {α : Type} (reader : Reader α) (t : Text) : Option α :=
  match reader t with
  | some (value, []) => some value
  | _ => none

end Reader

/-- The years that a timestamp may have. -/
def IsSupportedYear (year : Int) : Prop := -262143 ≤ year ∧ year ≤ 262142

instance (year : Int) : Decidable (IsSupportedYear year) := by
  unfold IsSupportedYear
  infer_instance

/-- The sixty-first second of a minute counts as the sixtieth. -/
def countedSecond (second : Nat) : Nat := if second = 60 then 59 else second

/-- An offset of hours and minutes behind a sign, in seconds to the east. -/
def secondsEast (sign : Char) (hours minutes : Nat) : Int :=
  let seconds : Int := (hours * 60 + minutes) * 60
  if sign == '+' then seconds else -seconds

/-- The parts of a timestamp. -/
structure Parts where
  year : Int
  month : Nat
  day : Nat
  hour : Nat
  minute : Nat
  second : Nat
  weekDay? : Option Nat

namespace Parts

/-- The date of a supported year, if it exists and falls on the given weekday, if any. -/
def date? (parts : Parts) : Option Date := do
  guard (IsSupportedYear parts.year)
  let date ← Date.of? parts.year parts.month parts.day
  guard (parts.weekDay?.all fun weekDay => weekDay == date.weekDay)
  pure date

def instant? (parts : Parts) : Option Instant := do
  let date ← parts.date?
  let time ← TimeOfDay.of? parts.hour parts.minute (countedSecond parts.second)
  pure ⟨date, time⟩

end Parts

end Timetable.Timestamp
