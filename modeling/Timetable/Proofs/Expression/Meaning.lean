import Timetable.Calendar.Instant
import Timetable.Proofs.Expression.Reading
import Timetable.Proofs.Period.Constraints
import Timetable.Proofs.Span.Gathering

/-!
# What written expressions mean

An item covers a value of a calendar field according to the numbers that it
writes, and a phrase matches an instant when the last listing of every scale has
an item that covers the instant's field. This meaning looks at the text and the
true field alone; the periods that are read accept just what it allows.
-/

namespace Timetable

/-- Whether a value does not lie past the upper end of an interval, which the boundary
counts in or leaves out. -/
def Boundary.Reaches : Boundary → Nat → Int → Prop
  | inclusive, stop, x => x ≤ stop
  | exclusive, stop, x => x < stop

/-- The true value of a calendar field, however far the year lies. -/
def Instant.value (t : Instant) : Scale → Int
  | .year => t.date.year
  | scale => t.fields scale

namespace Expression

variable {scale : Scale}

/-- The item covers the value of a field. An interval whose lower end lies above its upper
one covers both ends of the domain. -/
inductive Item.Covers (scale : Scale) (x : Int) : Item Text → Prop
  | single {t n} (h : Expression.Denotes scale t n) (hx : x = n) : Covers scale x (single t)
  | within {s t m n} (hm : Expression.Denotes scale s m) (hn : Expression.Denotes scale t n)
      (hle : m ≤ n) (hlow : m ≤ x) (hhigh : scale.boundary.Reaches n x) :
      Covers scale x (interval s t)
  | fromLowest {s t m n} (hm : Expression.Denotes scale s m) (hn : Expression.Denotes scale t n)
      (hlt : n < m) (hlow : scale.lowest ≤ x) (hhigh : scale.boundary.Reaches n x) :
      Covers scale x (interval s t)
  | toHighest {s t m n} (hm : Expression.Denotes scale s m) (hn : Expression.Denotes scale t n)
      (hlt : n < m) (hlow : m ≤ x) (hhigh : scale.boundary.Reaches scale.highest x) :
      Covers scale x (interval s t)

/-- One of the listed items covers the value. -/
def Listing.Covers (listing : Listing) (x : Int) : Prop :=
  ∃ item ∈ listing.items, item.Covers listing.scale x

/-- The listing of every scale covers the field of the instant. Of several listings of one
scale only the last one counts. -/
def Phrase.Matches (phrase : Phrase) (t : Instant) : Prop :=
  ∀ before listing after, phrase.listings = before ++ listing :: after →
    (∀ later ∈ after, later.scale ≠ listing.scale) → listing.Covers (t.value listing.scale)

end Expression

/-! ## Spans of field values -/

/-- Whether an integer lies in the span. -/
def Span.Holds (span : Span) (x : Int) : Prop :=
  span.start ≤ x ∧ span.boundary.Reaches span.stop x

theorem Boundary.reaches_iff (span : Span) (x : Int) :
    span.boundary.Reaches span.stop x ↔ x < span.limit := by
  obtain ⟨start, stop, boundary⟩ := span
  cases boundary with
  | inclusive =>
      simp only [Boundary.Reaches, Span.limit]
      omega
  | exclusive => rfl

theorem Span.holds_single (n : Nat) (boundary : Boundary) (x : Int) :
    (Span.single n boundary).Holds x ↔ x = n := by
  rw [Span.Holds, Boundary.reaches_iff, Span.start_single, Span.limit_single]
  omega

/-- A span holds the natural numbers that it covers. -/
theorem Span.holds_natCast (span : Span) (n : Nat) : span.Holds n ↔ span.covers n = true := by
  rw [Span.Holds, Boundary.reaches_iff, Span.covers_iff]
  omega

/-- A span within the domain of its scale holds the true field just when it covers the
clamped one. -/
theorem Span.covers_fields_iff {span : Span} {scale : Scale} (t : Instant)
    (hlow : scale.lowest ≤ span.start) (hhigh : span.limit ≤ scale.highest + 1) :
    span.covers (t.fields scale) = true ↔ span.Holds (t.value scale) := by
  rw [Span.covers_iff, Span.Holds, Boundary.reaches_iff]
  cases scale with
  | year =>
      simp only [Scale.lowest, Scale.highest] at hlow hhigh
      simp only [Instant.fields, Instant.value, Instant.lastYear]
      omega
  | _ =>
      simp only [Instant.value]
      omega

namespace Expression

variable {scale : Scale}

/-- Every span of an item lies within the domain. -/
theorem Item.Denotes.span_mem_domain {item : Item Text} {values : Item Nat}
    (h : item.Denotes scale values) {span : Span} (hspan : span ∈ values.spans scale) :
    scale.lowest ≤ span.start ∧ span.limit ≤ scale.highest + 1 := by
  have hlimit : ∀ m n, n ≤ scale.highest →
      (Span.mk m n scale.boundary).limit ≤ scale.highest + 1 := by
    intro m n hn
    cases hboundary : scale.boundary <;> simp only [Span.limit] <;> omega
  cases h with
  | single hn =>
      obtain rfl := List.mem_singleton.mp hspan
      rw [Span.start_single, Span.limit_single]
      have hdomain := hn.mem_domain
      omega
  | @interval s t m n hm hn =>
      have hm := hm.mem_domain
      have hn := hn.mem_domain
      by_cases hle : m ≤ n
      · rw [Item.spans_of_le hle] at hspan
        obtain rfl := List.mem_singleton.mp hspan
        exact ⟨hm.1, hlimit m n hn.2⟩
      · rw [Item.spans_of_lt (Nat.lt_of_not_le hle)] at hspan
        simp only [List.mem_cons, List.not_mem_nil, or_false] at hspan
        rcases hspan with rfl | rfl
        · exact ⟨Nat.le_refl _, hlimit _ n hn.2⟩
        · exact ⟨hm.1, hlimit m _ (Nat.le_refl _)⟩

/-- An item covers what the spans of its values hold. -/
theorem Item.Denotes.covers_iff {item : Item Text} {values : Item Nat}
    (h : item.Denotes scale values) (x : Int) :
    item.Covers scale x ↔ ∃ span ∈ values.spans scale, span.Holds x := by
  cases h with
  | @single t n hn =>
      simp only [Item.spans, List.mem_singleton, exists_eq_left, Span.holds_single]
      constructor
      · intro h
        cases h with
        | single hother hx => rw [hx, hother.unique hn]
      · exact Item.Covers.single hn
  | @interval s t m n hm hn =>
      by_cases hle : m ≤ n
      · simp only [Item.spans_of_le hle, List.mem_singleton, exists_eq_left]
        constructor
        · intro h
          cases h with
          | within hm' hn' _ hlow hhigh =>
              obtain rfl := hm'.unique hm
              obtain rfl := hn'.unique hn
              exact ⟨hlow, hhigh⟩
          | fromLowest hm' hn' hlt =>
              obtain rfl := hm'.unique hm
              obtain rfl := hn'.unique hn
              exact absurd hle (Nat.not_le_of_lt hlt)
          | toHighest hm' hn' hlt =>
              obtain rfl := hm'.unique hm
              obtain rfl := hn'.unique hn
              exact absurd hle (Nat.not_le_of_lt hlt)
        · intro h
          exact Item.Covers.within hm hn hle h.1 h.2
      · have hlt := Nat.lt_of_not_le hle
        simp only [Item.spans_of_lt hlt, List.mem_cons, List.not_mem_nil, or_false,
          exists_eq_or_imp, exists_eq_left]
        constructor
        · intro h
          cases h with
          | within hm' hn' hle' =>
              obtain rfl := hm'.unique hm
              obtain rfl := hn'.unique hn
              exact absurd hle' hle
          | fromLowest hm' hn' _ hlow hhigh =>
              obtain rfl := hn'.unique hn
              exact Or.inl ⟨hlow, hhigh⟩
          | toHighest hm' hn' _ hlow hhigh =>
              obtain rfl := hm'.unique hm
              exact Or.inr ⟨hlow, hhigh⟩
        · rintro (h | h)
          · exact Item.Covers.fromLowest hm hn hlt h.1 h.2
          · exact Item.Covers.toHighest hm hn hlt h.1 h.2

/-! ## Listings and phrases -/

/-- Items cover what the spans of their values hold. -/
theorem Item.exists_covers_iff {items : List (Item Text)} {values : List (Item Nat)}
    (h : List.Forall₂ (Item.Denotes scale) items values) (x : Int) :
    (∃ item ∈ items, item.Covers scale x) ↔
      ∃ span ∈ values.flatMap (Item.spans scale), span.Holds x := by
  constructor
  · rintro ⟨item, hitem, hcovers⟩
    obtain ⟨value, hvalue, hdenotes⟩ := Pointwise.exists_right h hitem
    obtain ⟨span, hspan, hholds⟩ := (hdenotes.covers_iff x).mp hcovers
    exact ⟨span, List.mem_flatMap.mpr ⟨value, hvalue, hspan⟩, hholds⟩
  · rintro ⟨span, hspan, hholds⟩
    obtain ⟨value, hvalue, hspan⟩ := List.mem_flatMap.mp hspan
    obtain ⟨item, hitem, hdenotes⟩ := Pointwise.exists_left h hvalue
    exact ⟨item, hitem, (hdenotes.covers_iff x).mpr ⟨span, hspan, hholds⟩⟩

theorem Item.exists_covers_iff_anyCovers {items : List (Item Text)} {values : List (Item Nat)}
    (h : List.Forall₂ (Item.Denotes scale) items values) (n : Nat) :
    (∃ item ∈ items, item.Covers scale n) ↔
      Span.anyCovers (values.flatMap (Item.spans scale)) n = true := by
  rw [Item.exists_covers_iff h, Span.anyCovers_iff]
  simp only [Span.holds_natCast]

/-- Gathered spans cover the field of an instant if one of the items does. -/
theorem Gathered.anyCovers_iff {items : List (Item Text)} {spans : List Span}
    (h : Gathered scale items spans) (t : Instant) :
    Span.anyCovers spans (t.fields scale) = true ↔
      ∃ item ∈ items, item.Covers scale (t.value scale) := by
  obtain ⟨hvalues, -⟩ := h
  rw [Span.anyCovers_ofAscending, Span.mem_distinctValues, Span.anyCovers_iff,
    Item.exists_covers_iff hvalues]
  apply exists_congr
  intro span
  apply and_congr_right
  intro hspan
  obtain ⟨value, hvalue, hspan⟩ := List.mem_flatMap.mp hspan
  obtain ⟨item, -, hdenotes⟩ := Pointwise.exists_left hvalues hvalue
  obtain ⟨hlow, hhigh⟩ := hdenotes.span_mem_domain hspan
  exact Span.covers_fields_iff t hlow hhigh

theorem Listing.Yields.anyCovers_iff {listing : Listing} {constraint : Scale × List Span}
    (h : listing.Yields constraint) (t : Instant) :
    Span.anyCovers constraint.2 (t.fields constraint.1) = true ↔
      listing.Covers (t.value listing.scale) := by
  obtain ⟨hscale, hgathered⟩ := h
  rw [hscale]
  exact hgathered.anyCovers_iff t

/-- The period of a phrase accepts the instants that the phrase matches. -/
theorem Phrase.Yields.accepts_iff {phrase : Phrase} {result : Period × Bool}
    (h : phrase.Yields result) (t : Instant) :
    result.1.accepts t.fields = true ↔ phrase.Matches t := by
  obtain ⟨hconstraints⟩ := h
  rw [Period.accepts_ofConstraints_iff]
  constructor
  · intro h before listing after hsplit hlater
    rw [hsplit] at hconstraints
    obtain ⟨front, constraint, back, hcut, -, hyields, hback⟩ :=
      Pointwise.exists_append_cons hconstraints
    apply (hyields.anyCovers_iff t).mp
    apply h front constraint back hcut
    intro c hc
    obtain ⟨later, hmem, hc⟩ := Pointwise.exists_left hback hc
    rw [hc.1, hyields.1]
    exact hlater later hmem
  · intro h front constraint back hcut hlater
    rw [hcut] at hconstraints
    obtain ⟨before, listing, after, hsplit, -, hyields, hafter⟩ :=
      Pointwise.exists_append_cons_left hconstraints
    apply (hyields.anyCovers_iff t).mpr
    apply h before listing after hsplit
    intro later hmem
    obtain ⟨c, hc, hlisting⟩ := Pointwise.exists_right hafter hmem
    rw [← hlisting.1, ← hyields.1]
    exact hlater c hc

end Expression

end Timetable
