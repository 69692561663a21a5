import Timetable.Scale
import Timetable.Text.Quoted

/-!
# Errors

The ways in which an expression or a timestamp can fail to be read. Each keeps
the text at fault; the message shows it between quotation marks.
-/

namespace Timetable

/-- What was wrong with a text. -/
inductive Error where
  /-- Text that starts no group remains at a byte position of its clause. -/
  | malformed (position : Nat) (rest : Text)
  /-- A value is no number of the scale's domain. -/
  | invalidValue (scale : Scale) (value : Text)
  /-- A value of a scale with names is neither a number nor a name. -/
  | unknownName (scale : Scale) (value : Text)
  /-- An hour is not written as digits with an optional qualifier. -/
  | hourForm (value : Text)
  /-- An hour's number does not go with its qualifier. -/
  | hourNumber (value : Text)
  /-- The spans of the year reach the last year of the domain. -/
  | unboundedYears (body : Text)
  /-- A text has none of the timestamp forms. -/
  | invalidTimestamp (timestamp : Text)
deriving DecidableEq

namespace Error

/-- The names and numbers that would have been accepted instead of an unknown name. -/
def expected (scale : Scale) : Text :=
  match scale.valueNames? with
  | some names => Scale.expectedValues scale names
  | none => []

def message : Error → Text
  | malformed position rest =>
    "malformed schedule (at ".toList ++ Text.ofNat position ++ ": ".toList ++
      Text.quoted rest ++ ")".toList
  | invalidValue scale value =>
    "invalid ".toList ++ scale.name ++ " value: ".toList ++ Text.quoted value
  | unknownName scale value =>
    "invalid ".toList ++ scale.name ++ " value: ".toList ++ Text.quoted value ++
      " (expected one of: ".toList ++ expected scale ++ ")".toList
  | hourForm value => "invalid hour range: ".toList ++ Text.quoted value
  | hourNumber value => "invalid hour value: ".toList ++ Text.quoted value
  | unboundedYears body =>
    "no support for wrapped year ranges: ".toList ++ Text.quoted body
  | invalidTimestamp timestamp => "invalid timestamp: ".toList ++ Text.quoted timestamp

/-- Whether a well-formed hour was out of range, the one error about a number's size
that is told apart from the rest. -/
def isHourNumber : Error → Bool
  | hourNumber _ => true
  | _ => false

/-- The place of an error's kind among all kinds. -/
def rank : Error → Nat
  | malformed .. => 0
  | invalidValue .. => 1
  | unknownName .. => 2
  | hourForm .. => 3
  | hourNumber .. => 4
  | unboundedYears .. => 5
  | invalidTimestamp .. => 6

/-- The number that an error is compared by after its kind: a position, or the rank
of a scale. -/
def place : Error → Nat
  | malformed position _ => position
  | invalidValue scale _ => scale.rank
  | unknownName scale _ => scale.rank
  | _ => 0

/-- The text at fault. -/
def fault : Error → Text
  | malformed _ rest => rest
  | invalidValue _ value => value
  | unknownName _ value => value
  | hourForm value => value
  | hourNumber value => value
  | unboundedYears body => body
  | invalidTimestamp timestamp => timestamp

/-- Errors are ordered by kind, then by place, then by the text at fault. -/
instance : Ord Error :=
  ⟨compareLex (compareOn rank) (compareLex (compareOn place) (compareOn fault))⟩

end Error

end Timetable
