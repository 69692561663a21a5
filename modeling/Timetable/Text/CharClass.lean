import Timetable.Text.Basic

/-!
# Classes of characters

A class is listed as ascending closed ranges of code points. The tables of
Unicode properties are written this way.
-/

namespace Timetable.Text

/-- Ascending closed ranges of code points. -/
abbrev CharClass := List (Nat × Nat)

/-- Whether one of the ranges holds the character. -/
def CharClass.contains (ranges : CharClass) (c : Char) : Bool :=
  ranges.any fun r => r.1 ≤ c.toNat && c.toNat ≤ r.2

end Timetable.Text
