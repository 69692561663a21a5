import Timetable.Ascending
import Timetable.Span.Basic

/-!
# Spans and lists of values

Spans expand into the ascending list of their distinct values, and values are
gathered into the fewest spans with one boundary: two values share a span exactly
when no value between them is missing. Neither way is a value lost or added.
-/

namespace Timetable.Span

/-- Whether one of the spans has the value. -/
def anyCovers (spans : List Span) (value : Nat) : Bool := spans.any fun span => span.covers value

/-- A number above all values of the spans. -/
def ceiling (spans : List Span) : Nat := spans.foldr (fun span top => max span.limit top) 0

/-- The distinct values of some spans in ascending order. -/
def distinctValues (spans : List Span) : List Nat :=
  (List.range (ceiling spans)).filter (anyCovers spans)

/-- Adds a value below all spans, to the first of them if the two touch. -/
def addBelow (boundary : Boundary) (value : Nat) : List Span → List Span
  | [] => [single value boundary]
  | span :: rest =>
    if value + 1 = span.start then { span with start := value } :: rest
    else single value boundary :: span :: rest

/-- The fewest spans for an ascending list of values. -/
def ofAscending (boundary : Boundary) (values : List Nat) : List Span :=
  values.foldr (addBelow boundary) []

/-- The fewest spans for the distinct values of a list. -/
def ofValues (boundary : Boundary) (values : List Nat) : List Span :=
  ofAscending boundary (ascending compare values)

@[simp] theorem anyCovers_nil (value : Nat) : anyCovers [] value = false := rfl

@[simp] theorem anyCovers_cons (span : Span) (rest : List Span) (value : Nat) :
    anyCovers (span :: rest) value = (span.covers value || anyCovers rest value) := rfl

@[simp] theorem anyCovers_append (left right : List Span) (value : Nat) :
    anyCovers (left ++ right) value = (anyCovers left value || anyCovers right value) :=
  List.any_append

theorem lt_ceiling {spans : List Span} {value : Nat} (h : anyCovers spans value = true) :
    value < ceiling spans := by
  induction spans with
  | nil => simp at h
  | cons span rest ih =>
    rw [anyCovers_cons, Bool.or_eq_true] at h
    change value < max span.limit (ceiling rest)
    rcases h with h | h
    · have := ((covers_iff span value).1 h).2
      omega
    · have := ih h
      omega

theorem mem_distinctValues (spans : List Span) (value : Nat) :
    value ∈ distinctValues spans ↔ anyCovers spans value = true := by
  simp only [distinctValues, List.mem_filter, List.mem_range]
  exact ⟨fun h => h.2, fun h => ⟨lt_ceiling h, h⟩⟩

theorem pairwise_distinctValues (spans : List Span) :
    (distinctValues spans).Pairwise (· < ·) :=
  List.pairwise_lt_range.filter _

/-- An added value is covered besides those that were covered before, as long as the
first span is not empty. -/
theorem anyCovers_addBelow (boundary : Boundary) (value x : Nat) {spans : List Span}
    (h : ∀ span ∈ spans.head?, span.start < span.limit) :
    anyCovers (addBelow boundary value spans) x = true ↔
      x = value ∨ anyCovers spans x = true := by
  cases spans with
  | nil => simp [addBelow, covers_single]
  | cons span rest =>
    have hpos := h span (by simp)
    by_cases touch : value + 1 = span.start
    · have hlimit : ({ span with start := value } : Span).limit = span.limit := rfl
      simp only [addBelow, if_pos touch, anyCovers_cons, Bool.or_eq_true, covers_iff, hlimit]
      rw [← or_assoc]
      refine or_congr_left ?_
      omega
    · simp [addBelow, if_neg touch, covers_single]

theorem head_addBelow (boundary : Boundary) (value : Nat) {spans : List Span}
    (h : ∀ span ∈ spans.head?, span.start < span.limit) :
    ∀ span ∈ (addBelow boundary value spans).head?, span.start < span.limit := by
  cases spans with
  | nil => simp [addBelow]
  | cons first rest =>
    have hpos := h first (by simp)
    by_cases touch : value + 1 = first.start
    · have hlimit : ({ first with start := value } : Span).limit = first.limit := rfl
      simp only [addBelow, if_pos touch, List.head?_cons, Option.mem_some_iff]
      rintro span rfl
      rw [hlimit]
      change value < first.limit
      omega
    · simp [addBelow, if_neg touch]

theorem head_ofAscending (boundary : Boundary) (values : List Nat) :
    ∀ span ∈ (ofAscending boundary values).head?, span.start < span.limit := by
  induction values with
  | nil => simp [ofAscending]
  | cons value rest ih => exact head_addBelow boundary value ih

/-- Gathered spans cover exactly the values that were gathered. -/
theorem anyCovers_ofAscending (boundary : Boundary) (values : List Nat) (x : Nat) :
    anyCovers (ofAscending boundary values) x = true ↔ x ∈ values := by
  induction values with
  | nil => simp [ofAscending]
  | cons value rest ih =>
    change anyCovers (addBelow boundary value (ofAscending boundary rest)) x = true ↔ _
    rw [anyCovers_addBelow boundary value x (head_ofAscending boundary rest), ih, List.mem_cons]

theorem anyCovers_ofValues (boundary : Boundary) (values : List Nat) (x : Nat) :
    anyCovers (ofValues boundary values) x = true ↔ x ∈ values := by
  rw [ofValues, anyCovers_ofAscending, mem_ascending]

end Timetable.Span
