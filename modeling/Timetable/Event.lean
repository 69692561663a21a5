import Timetable.Scale

/-!
# Events

Reading an expression and intersecting periods report what they do, step by
step. An event has a level, a message and named details, all of them texts.
-/

namespace Timetable

/-- A step worth reporting. -/
inductive Event where
  /-- Both ends of an interval of values were read. -/
  | interval (scale : Scale) (low high : Nat)
  /-- The lower end lies above the upper one, so the interval wraps around. -/
  | wrapped (scale : Scale) (low high : Nat)
  /-- So many distinct values are gathered into spans. -/
  | gathered (scale : Scale) (count : Nat)
  /-- Two lists of periods of the given lengths have so many satisfiable pairs. -/
  | intersected (left right satisfiable : Nat)
deriving DecidableEq

namespace Event

/-- How much an event matters. -/
inductive Level where
  | trace
  | debug
deriving DecidableEq

def level : Event → Level
  | interval .. => .trace
  | wrapped .. => .debug
  | gathered .. => .trace
  | intersected .. => .debug

/-- Two numbers with a hyphen between them. -/
def hyphenated (low high : Nat) : Text := Text.ofNat low ++ '-' :: Text.ofNat high

def message : Event → Text
  | interval .. => "extracted range".toList
  | wrapped scale low high =>
    "wrapped range ".toList ++ hyphenated low high ++ ": ".toList ++
      hyphenated scale.lowest high ++ " and ".toList ++ hyphenated low scale.highest
  | gathered .. => "coalescing values into ranges".toList
  | intersected .. => "intersected periods".toList

/-- The named details of an event. -/
def details : Event → List (Text × Text)
  | interval scale low high =>
    [("scale".toList, scale.name), ("min".toList, Text.ofNat low), ("max".toList, Text.ofNat high)]
  | wrapped scale _ _ => [("scale".toList, scale.name)]
  | gathered scale count =>
    [("scale".toList, scale.name), ("count".toList, Text.ofNat count)]
  | intersected left right satisfiable =>
    [("left".toList, Text.ofNat left), ("right".toList, Text.ofNat right),
      ("satisfiable".toList, Text.ofNat satisfiable)]

end Event

end Timetable
