import Timetable.Timestamp.Reader

/-!
# Internet timestamps

The profile of ISO 8601 for the Internet: every number has all its digits, the
date and the time are parted by a T or a space, and an offset from universal
time stands at the end.
-/

namespace Timetable.Timestamp.Internet

open Reader

/-- The offset from universal time, in hours and minutes behind a sign. -/
def offset : Reader Int := do
  let sign ← oneOf fun c => c == '+' || c == '-' || c == '\u2212'
  let hours ← number 2 2
  literal [':']
  let minutes ← number 2 2
  guard (hours < 24 ∧ minutes < 60)
  pure (secondsEast sign hours minutes)

/-- A letter for universal time, or an offset from it. -/
def zone : Reader Int := fun t =>
  match t with
  | 'Z' :: rest | 'z' :: rest => some (0, rest)
  | _ => offset t

/-- A point and the digits of a fraction of a second, if there is a point. -/
def fraction : Reader Unit := fun t =>
  match t with
  | '.' :: rest => (digits 1 rest).map fun read => ((), read.2)
  | _ => some ((), t)

/-- The parts of the local time and the offset of its zone. -/
def parts : Reader (Parts × Int) := do
  let year ← number 4 4
  literal ['-']
  let month ← number 2 2
  literal ['-']
  let day ← number 2 2
  let _ ← oneOf fun c => c == 'T' || c == 't' || c == ' '
  let hour ← number 2 2
  literal [':']
  let minute ← number 2 2
  literal [':']
  let second ← number 2 2
  fraction
  let offset ← zone
  pure (⟨year, month, day, hour, minute, second, none⟩, offset)

/-- The local date and time of a text of this form, and the offset. -/
def zoned? (t : Text) : Option ZonedInstant := do
  let (parts, offset) ← whole parts t
  let instant ← parts.instant?
  pure ⟨instant, offset⟩

end Timetable.Timestamp.Internet
