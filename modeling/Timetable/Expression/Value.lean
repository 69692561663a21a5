import Timetable.Error

/-!
# Values

A value is written in decimal digits; months and weekdays also by name, hours
also with a qualifier behind the digits. A bare hour 0 is the end of the day.
-/

namespace Timetable.Expression

/-- Reads decimal digits whose number lies in the scale's domain. -/
def readNumeral (scale : Scale) (t : Text) : Except Error Nat :=
  if Text.isNumeral t && scale.lowest ≤ Text.toNat t && Text.toNat t ≤ scale.highest then
    .ok (Text.toNat t)
  else .error (.invalidValue scale t)

/-- What may follow the digits of an hour. -/
inductive Qualifier where
  | bare
  | am
  | pm
  | noon
deriving DecidableEq

namespace Qualifier

def ofText? (t : Text) : Option Qualifier :=
  if t = [] then some bare
  else if t = "am".toList then some am
  else if t = "pm".toList then some pm
  else if t = "noon".toList then some noon
  else none

/-- The hour of the day that a number stands for: a bare number is at most 24, with 0
for the end of the day; a qualified one lies within 1 to 12, and only `pm` shifts it. -/
def hour? (qualifier : Qualifier) (n : Nat) : Option Nat :=
  match qualifier with
  | bare => if n = 0 then some 24 else if n ≤ 24 then some n else none
  | am | noon => if 1 ≤ n ∧ n ≤ 12 then some n else none
  | pm => if 1 ≤ n ∧ n < 12 then some (n + 12) else if n = 12 then some 12 else none

end Qualifier

/-- Reads an hour: digits, then a qualifier at once. -/
def readHour (t : Text) : Except Error Nat :=
  let digits := t.takeWhile Char.isDigit
  match Qualifier.ofText? (t.dropWhile Char.isDigit) with
  | none => .error (.hourForm t)
  | some qualifier =>
    if digits = [] then .error (.hourForm t)
    else
      match qualifier.hour? (Text.toNat digits) with
      | some hour => .ok hour
      | none => .error (.hourNumber t)

/-- Reads the name of a value, or its number. -/
def readNamed (scale : Scale) (names : Scale.ValueNames) (t : Text) : Except Error Nat :=
  if Text.isNumeral t then readNumeral scale t
  else
    match names.value? t with
    | some value => .ok value
    | none => .error (.unknownName scale t)

/-- Reads a value of the scale. -/
def readValue (scale : Scale) (t : Text) : Except Error Nat :=
  if scale = .hour then readHour t
  else
    match scale.valueNames? with
    | some names => readNamed scale names t
    | none => readNumeral scale t

end Timetable.Expression
