import Timetable.Text.Basic

/-!
# Scales

A scale is one of the nine calendar fields that a period may constrain, from
the year down to the second. Each has a name, a code, a closed domain of values
and a way to close its spans; months and weekdays also have names for values.
-/

namespace Timetable

/-- Whether the upper end of a span is its last value or the first one past it. -/
inductive Boundary where
  | inclusive
  | exclusive
deriving DecidableEq

namespace Boundary

def rank : Boundary → Nat
  | inclusive => 0
  | exclusive => 1

instance : Ord Boundary := ⟨fun a b => compare a.rank b.rank⟩

end Boundary

/-- The calendar fields, from the largest unit to the smallest. -/
inductive Scale where
  | year
  | month
  | week
  | yearDay
  | monthDay
  | weekDay
  | hour
  | minute
  | second
deriving DecidableEq

namespace Scale

/-- The place of a scale in the order from the year to the second. -/
def rank : Scale → Nat
  | year => 0
  | month => 1
  | week => 2
  | yearDay => 3
  | monthDay => 4
  | weekDay => 5
  | hour => 6
  | minute => 7
  | second => 8

instance : Ord Scale := ⟨fun a b => compare a.rank b.rank⟩

/-- All scales in order. -/
def all : List Scale :=
  [year, month, week, yearDay, monthDay, weekDay, hour, minute, second]

theorem mem_all (scale : Scale) : scale ∈ all := by
  cases scale <;> decide

theorem rank_injective {a b : Scale} (h : a.rank = b.rank) : a = b := by
  cases a <;> cases b <;> first | rfl | cases h

/-- The full name of a scale. -/
def name : Scale → Text
  | year => "year".toList
  | month => "month".toList
  | week => "week".toList
  | yearDay => "yday".toList
  | monthDay => "mday".toList
  | weekDay => "wday".toList
  | hour => "hour".toList
  | minute => "minute".toList
  | second => "second".toList

/-- The short code of a scale, the one that printed periods use. -/
def code : Scale → Text
  | year => "yr".toList
  | month => "mo".toList
  | week => "wk".toList
  | yearDay => "yd".toList
  | monthDay => "md".toList
  | weekDay => "wd".toList
  | hour => "hr".toList
  | minute => "min".toList
  | second => "sec".toList

/-- The least value of the domain. -/
def lowest : Scale → Nat
  | year => 2000
  | month | week | yearDay | monthDay => 1
  | weekDay | hour | minute | second => 0

/-- The greatest value of the domain. -/
def highest : Scale → Nat
  | year => 9999
  | month => 12
  | week => 5
  | yearDay => 366
  | monthDay => 31
  | weekDay => 6
  | hour => 24
  | minute | second => 60

/-- Days and larger units are closed by their last value, times of day by the
first value past the span. -/
def boundary : Scale → Boundary
  | year | month | week | yearDay | monthDay | weekDay => .inclusive
  | hour | minute | second => .exclusive

/-- Names for consecutive values, the first of which is `first`. -/
structure ValueNames where
  short : List Text
  long : List Text
  first : Nat

/-- The English months, January being 1. -/
def monthNames : ValueNames where
  short :=
    ["jan", "feb", "mar", "apr", "may", "jun", "jul", "aug", "sep", "oct", "nov", "dec"].map
      String.toList
  long :=
    ["january", "february", "march", "april", "may", "june", "july", "august", "september",
      "october", "november", "december"].map String.toList
  first := 1

/-- The English weekdays, Sunday being 0. -/
def weekDayNames : ValueNames where
  short := ["sun", "mon", "tue", "wed", "thu", "fri", "sat"].map String.toList
  long :=
    ["sunday", "monday", "tuesday", "wednesday", "thursday", "friday", "saturday"].map
      String.toList
  first := 0

/-- The names of a scale's values, if they have any. -/
def valueNames? : Scale → Option ValueNames
  | month => some monthNames
  | weekDay => some weekDayNames
  | _ => none

/-- The place of a name in a list of names, in letters of either case. -/
def placeOf? (names : List Text) (t : Text) : Option Nat :=
  names.findIdx? fun name => Text.equalsIgnoringCase name t

/-- The value with the given name; short names are looked up first. -/
def ValueNames.value? (names : ValueNames) (t : Text) : Option Nat :=
  ((placeOf? names.short t).or (placeOf? names.long t)).map (· + names.first)

/-- The names and the numbers that a scale with names accepts, for messages. -/
def expectedValues (scale : Scale) (names : ValueNames) : Text :=
  ", ".toList.intercalate
    (names.short ++ names.long ++
      [Text.ofNat scale.lowest ++ '-' :: Text.ofNat scale.highest])

/-- The ways to write a scale. A full name comes before a code, so that the first
one found at the start of a text is the longest. -/
def spellings : List (Scale × Text) :=
  all.map (fun scale => (scale, scale.name)) ++ all.map fun scale => (scale, scale.code)

/-- The scale with the given name or code, in letters of either case. -/
def ofName? (t : Text) : Option Scale :=
  all.find? fun scale =>
    Text.equalsIgnoringCase scale.name t || Text.equalsIgnoringCase scale.code t

/-- Reads a scale at the start of a text; gives what follows it. -/
def read? (t : Text) : Option (Scale × Text) :=
  spellings.findSome? fun entry => (entry.2.isPrefixOf? t).map fun rest => (entry.1, rest)

end Scale

end Timetable
