import Timetable.Timestamp.Reader

/-!
# Mail timestamps

The date line of a mail message: an optional weekday, day, month by name, year,
time and zone, then any number of comments in parentheses.
-/

namespace Timetable.Timestamp.Mail

open Reader

/-- A weekday with a comma at once behind it, if the text starts with a weekday. -/
def weekDay? : Reader (Option Nat) := fun t =>
  match name 3 Scale.weekDayNames.short t with
  | some (weekDay, rest) => (literal [','] rest).map fun read => (some weekDay, read.2)
  | none => some (none, t)

/-- A year of two digits lies within 1950 to 2049, one of three digits counts from 1900. -/
def fullYear (digits : Text) : Nat :=
  let n := Text.toNat digits
  if digits.length = 2 then if n < 50 then n + 2000 else n + 1900
  else if digits.length = 3 then n + 1900
  else n

/-- The seconds, if a colon starts them. -/
def second : Reader Nat := fun t =>
  match Text.trimStart t with
  | ':' :: rest => number 2 2 rest
  | _ => some (0, t)

/-- The zones with names, and their offsets in hours. -/
def zones : List (Text × Int) :=
  [("ut".toList, 0), ("gmt".toList, 0), ("est".toList, -5), ("edt".toList, -4),
    ("cst".toList, -6), ("cdt".toList, -5), ("mst".toList, -7), ("mdt".toList, -6),
    ("pst".toList, -8), ("pdt".toList, -7)]

/-- The offset in seconds of a zone by name. Single letters other than J are military
zones, all taken for universal time. -/
def zoneOffset? (name : Text) : Option Int :=
  match zones.find? fun zone => Text.equalsIgnoringCase zone.1 name with
  | some zone => some (zone.2 * 3600)
  | none =>
    match name with
    | [letter] => if letter.toLower == 'j' then none else some 0
    | _ => none

/-- An offset in seconds, in hours and minutes behind a sign. -/
def numericOffset : Reader Int := do
  let sign ← oneOf fun c => c == '+' || c == '-'
  let hours ← number 2 2
  let minutes ← number 2 2
  guard (hours < 24 ∧ minutes < 60)
  pure (secondsEast sign hours minutes)

/-- The offset of a zone in seconds east of universal time. -/
def offset : Reader Int := fun t =>
  let name := t.takeWhile Char.isAlpha
  if name.isEmpty then numericOffset t
  else (zoneOffset? name).map fun offset => (offset, t.drop name.length)

/-- Whether a text consists of comments alone, when it starts inside of `depth` open
parentheses. Blanks may only stand before a comment, and `pending` tells that some have been
seen. A backslash takes its meaning from the character behind it. -/
def isComments (pending : Bool) : Nat → Text → Bool
  | depth, [] => depth == 0 && !pending
  | 0, c :: rest =>
    if Text.isBlank c then isComments true 0 rest else c == '(' && isComments false 1 rest
  | depth + 1, '\\' :: _ :: rest => isComments false (depth + 1) rest
  | depth + 1, '(' :: rest => isComments false (depth + 2) rest
  | depth + 1, ')' :: rest => isComments false depth rest
  | depth + 1, _ :: rest => isComments false (depth + 1) rest

/-- The parts of the local time and the offset of its zone. -/
def parts : Reader (Parts × Int) := do
  blanks
  let weekDay ← weekDay?
  blanks
  let day ← number 1 2
  someBlanks
  let month ← name 3 Scale.monthNames.short
  someBlanks
  let year ← digits 2
  someBlanks
  let hour ← number 2 2
  blanks
  literal [':']
  blanks
  let minute ← number 2 2
  let second ← second
  someBlanks
  let offset ← offset
  pure (⟨fullYear year, month + 1, day, hour, minute, second, weekDay⟩, offset)

/-- The seconds of universal time that belong to supported years, as a first one and
the first one past them. -/
def supportedSeconds : Int × Int :=
  (Date.daysBeforeYear (-262143) * 86400 + 86400, Date.daysBeforeYear 262143 * 86400 + 86400)

/-- The local date and time of a text of this form, and the offset. Universal time, too, has
to be in a supported year. -/
def zoned? (t : Text) : Option ZonedInstant := do
  let ((parts, offset), rest) ← parts t
  guard (isComments false 0 rest)
  let instant ← parts.instant?
  let universal := instant.seconds - offset
  guard (supportedSeconds.1 ≤ universal ∧ universal < supportedSeconds.2)
  pure ⟨instant, offset⟩

end Timetable.Timestamp.Mail
