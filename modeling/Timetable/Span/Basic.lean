import Timetable.Scale

/-!
# Spans of values

A span runs from its first value to its upper end, which its boundary counts in
or leaves out. Either way its values are those from its start up to its limit,
the first value past it.
-/

namespace Timetable

/-- The values from `start` up to `stop`, the last of them being `stop` itself or the
one before. A span that does not start below its limit is empty. -/
structure Span where
  start : Nat
  stop : Nat
  boundary : Boundary
deriving DecidableEq

namespace Span

/-- The first value past the span. -/
def limit (span : Span) : Nat :=
  match span.boundary with
  | .inclusive => span.stop + 1
  | .exclusive => span.stop

/-- Whether a value lies in the span. -/
def covers (span : Span) (value : Nat) : Bool :=
  span.start ≤ value && value < span.limit

/-- Whether the span has exactly one value. -/
def isSingle (span : Span) : Bool := span.start + 1 == span.limit

/-- The values of the span in ascending order. -/
def values (span : Span) : List Nat := List.range' span.start (span.limit - span.start)

/-- The span of one value. -/
def single (value : Nat) (boundary : Boundary) : Span :=
  match boundary with
  | .inclusive => ⟨value, value, boundary⟩
  | .exclusive => ⟨value, value + 1, boundary⟩

/-- A single value stands for its span; otherwise the two ends do. -/
def text (span : Span) : Text :=
  if span.isSingle then Text.ofNat span.start
  else Text.ofNat span.start ++ '-' :: Text.ofNat span.stop

/-- Spans are ordered by start, then by stop, then by boundary. -/
instance : Ord Span :=
  ⟨compareLex (compareOn start) (compareLex (compareOn stop) (compareOn boundary))⟩

theorem covers_iff (span : Span) (value : Nat) :
    span.covers value = true ↔ span.start ≤ value ∧ value < span.limit := by
  simp [covers]

theorem mem_values (span : Span) (value : Nat) :
    value ∈ span.values ↔ span.covers value = true := by
  rw [values, List.mem_range'_1, covers_iff]
  omega

@[simp] theorem start_single (value : Nat) (boundary : Boundary) :
    (single value boundary).start = value := by
  cases boundary <;> rfl

@[simp] theorem limit_single (value : Nat) (boundary : Boundary) :
    (single value boundary).limit = value + 1 := by
  cases boundary <;> rfl

@[simp] theorem boundary_single (value : Nat) (boundary : Boundary) :
    (single value boundary).boundary = boundary := by
  cases boundary <;> rfl

theorem covers_single (value : Nat) (boundary : Boundary) (x : Nat) :
    (single value boundary).covers x = true ↔ x = value := by
  rw [covers_iff, start_single, limit_single]
  omega

end Span

end Timetable
