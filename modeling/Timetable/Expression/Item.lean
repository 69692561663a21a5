import Timetable.Expression.Value
import Timetable.Logged
import Timetable.Span.Values

/-!
# Items

The body of a group lists items between blanks. An item is a value or an
interval of two values with a hyphen between them, and blanks around the hyphen
do not separate items. An interval whose lower end lies above its upper one
wraps around the domain of the scale.
-/

namespace Timetable.Expression

/-- Joins a word to the token that follows it if a hyphen stands between the two. -/
def attach (word : Text) : List Text → List Text
  | [] => [word]
  | token :: rest =>
    if word.getLast? = some '-' || token.head? = some '-' then (word ++ token) :: rest
    else word :: token :: rest

/-- The words of a text, joined over hyphens. -/
def tokens (t : Text) : List Text := (Text.words t).foldr attach []

/-- A single value or an interval between two. -/
inductive Item (α : Type) where
  | single (value : α)
  | interval (low high : α)
deriving DecidableEq

namespace Item

/-- The first hyphen of a token parts the ends of an interval. -/
def ofToken (token : Text) : Item Text :=
  match token.dropWhile (· != '-') with
  | [] => single token
  | _ :: high => interval (token.takeWhile (· != '-')) high

/-- Reads the values of an item, the lower end before the upper. -/
def read (scale : Scale) : Item Text → Logged Error (Item Nat)
  | single t => do
    let value ← Logged.silent (readValue scale t)
    pure (single value)
  | interval lowText highText => do
    let low ← Logged.silent (readValue scale lowText)
    let high ← Logged.silent (readValue scale highText)
    Logged.report (.interval scale low high)
    if high < low then Logged.report (.wrapped scale low high)
    pure (interval low high)

/-- The spans of an item. An interval that wraps around covers the two ends of the
domain. -/
def spans (scale : Scale) : Item Nat → List Span
  | single value => [Span.single value scale.boundary]
  | interval low high =>
    if low ≤ high then [⟨low, high, scale.boundary⟩]
    else [⟨scale.lowest, high, scale.boundary⟩, ⟨low, scale.highest, scale.boundary⟩]

theorem spans_of_le {scale : Scale} {low high : Nat} (h : low ≤ high) :
    spans scale (interval low high) = [⟨low, high, scale.boundary⟩] := if_pos h

theorem spans_of_lt {scale : Scale} {low high : Nat} (h : high < low) :
    spans scale (interval low high) =
      [⟨scale.lowest, high, scale.boundary⟩, ⟨low, scale.highest, scale.boundary⟩] :=
  if_neg (Nat.not_le.2 h)

end Item

/-- Reads the spans that the body of a group lists for its scale. Years may not reach
the end of their domain. -/
def readSpans (scale : Scale) (body : Text) : Logged Error (List Span) := do
  let items ← Logged.traverse (fun token => (Item.ofToken token).read scale) (tokens body)
  let values := Span.distinctValues (items.flatMap (Item.spans scale))
  Logged.report (.gathered scale values.length)
  if scale = .year && values.contains scale.highest then
    Logged.silent (.error (.unboundedYears body))
  else pure (Span.ofAscending scale.boundary values)

end Timetable.Expression
