import Timetable.Proofs.Expression.Meaning
import Timetable.Proofs.Text.Printed

/-!
# The grammar of expressions

A value is legal for a scale by its form and number alone, and a clause is
grammatical when it is written as a phrase with legal listings. Reading succeeds
on grammatical clauses and on no others: legal values are those that stand for a
number, and the years that may not be read are those that a listing covers.
-/

namespace Timetable.Expression

variable {scale : Scale}

/-- The text is a value of the scale. -/
inductive Legal : Scale → Text → Prop
  | number {scale digits} (hscale : scale ≠ .hour) (hdigits : Text.isNumeral digits = true)
      (hlow : scale.lowest ≤ Text.toNat digits) (hhigh : Text.toNat digits ≤ scale.highest) :
      Legal scale digits
  | name {scale names name t} (hnames : scale.valueNames? = some names)
      (hname : name ∈ names.short ∨ name ∈ names.long)
      (hcase : Text.equalsIgnoringCase name t = true) : Legal scale t
  | hour {digits} (hdigits : Text.isNumeral digits = true) (hhigh : Text.toNat digits ≤ 24) :
      Legal .hour digits
  | qualified {digits qualifier}
      (hqualifier : qualifier ∈ ["am".toList, "pm".toList, "noon".toList])
      (hdigits : Text.isNumeral digits = true) (hlow : 1 ≤ Text.toNat digits)
      (hhigh : Text.toNat digits ≤ 12) : Legal .hour (digits ++ qualifier)

namespace Item

/-- The ends of the item are values of the scale. -/
def Legal (scale : Scale) : Item Text → Prop
  | single t => Expression.Legal scale t
  | interval s t => Expression.Legal scale s ∧ Expression.Legal scale t

/-- The lower end of the item lies above its upper one. -/
inductive Wraps (scale : Scale) : Item Text → Prop
  | intro {s t m n} (hm : Expression.Denotes scale s m) (hn : Expression.Denotes scale t n)
      (hlt : n < m) : Wraps scale (interval s t)

end Item

/-- The items are legal, and those for years neither cover the end of the domain nor wrap
around it. -/
structure Listing.Legal (listing : Listing) : Prop where
  values : ∀ item ∈ listing.items, item.Legal listing.scale
  years : listing.scale = .year → ¬listing.Covers 9999 ∧ ∀ item ∈ listing.items, ¬item.Wraps .year

/-- The text is written as a phrase with legal listings. -/
def Grammatical (t : Text) : Prop :=
  ∃ phrase : Phrase, phrase.Written t ∧ ∀ listing ∈ phrase.listings, listing.Legal

/-! ## Values -/

theorem Legal.exists_denotes {t : Text} (h : Legal scale t) : ∃ n, Denotes scale t n := by
  cases h with
  | number hscale hdigits hlow hhigh => exact ⟨_, Denotes.number hscale hdigits hlow hhigh⟩
  | name hnames hname hcase =>
      rcases hname with hname | hname
      · obtain ⟨i, hi⟩ := List.mem_iff_getElem?.mp hname
        exact ⟨_, Denotes.name hnames (Or.inl ⟨_, hi, hcase⟩)⟩
      · obtain ⟨i, hi⟩ := List.mem_iff_getElem?.mp hname
        exact ⟨_, Denotes.name hnames (Or.inr ⟨_, hi, hcase⟩)⟩
  | hour hdigits hhigh =>
      by_cases hzero : Text.toNat t = 0
      · exact ⟨24, Denotes.endOfDay hdigits hzero⟩
      · exact ⟨_, Denotes.bare hdigits (Nat.one_le_iff_ne_zero.mpr hzero) hhigh⟩
  | @qualified digits _ hqualifier hdigits hlow hhigh =>
      simp only [List.mem_cons, List.not_mem_nil, or_false] at hqualifier
      rcases hqualifier with rfl | rfl | rfl
      · exact ⟨_, Denotes.unshifted (Or.inl rfl) hdigits hlow hhigh⟩
      · by_cases hnoon : Text.toNat digits = 12
        · exact ⟨12, Denotes.midday hdigits hnoon⟩
        · exact ⟨_, Denotes.shifted hdigits hlow (Nat.lt_of_le_of_ne hhigh hnoon)⟩
      · exact ⟨_, Denotes.unshifted (Or.inr rfl) hdigits hlow hhigh⟩

theorem Denotes.legal {t : Text} {n : Nat} (h : Denotes scale t n) : Legal scale t := by
  cases h with
  | number hscale hdigits hlow hhigh => exact Legal.number hscale hdigits hlow hhigh
  | name hnames hname =>
      rcases hname with ⟨_, hname, hcase⟩ | ⟨_, hname, hcase⟩
      · exact Legal.name hnames (Or.inl (List.mem_of_getElem? hname)) hcase
      · exact Legal.name hnames (Or.inr (List.mem_of_getElem? hname)) hcase
  | endOfDay hdigits hzero =>
      apply Legal.hour hdigits
      omega
  | bare hdigits _ hhigh => exact Legal.hour hdigits hhigh
  | unshifted hqualifier hdigits hlow hhigh =>
      refine Legal.qualified ?_ hdigits hlow hhigh
      rcases hqualifier with rfl | rfl <;> simp
  | shifted hdigits hlow hhigh => exact Legal.qualified (by simp) hdigits hlow (by omega)
  | midday hdigits hnoon => exact Legal.qualified (by simp) hdigits (by omega) (by omega)

/-- The values of a scale are the texts that stand for a number. -/
theorem legal_iff_exists_denotes (t : Text) : Legal scale t ↔ ∃ n, Denotes scale t n := by
  constructor
  · exact Legal.exists_denotes
  · rintro ⟨n, h⟩
    exact h.legal

namespace Item

theorem legal_iff_exists_denotes (item : Item Text) :
    item.Legal scale ↔ ∃ values, item.Denotes scale values := by
  cases item with
  | single t =>
      rw [Legal, Expression.legal_iff_exists_denotes]
      constructor
      · rintro ⟨n, hn⟩
        exact ⟨_, Denotes.single hn⟩
      · rintro ⟨_, hn⟩
        cases hn with
        | single hn => exact ⟨_, hn⟩
  | interval s t =>
      rw [Legal, Expression.legal_iff_exists_denotes, Expression.legal_iff_exists_denotes]
      constructor
      · rintro ⟨⟨m, hm⟩, ⟨n, hn⟩⟩
        exact ⟨_, Denotes.interval hm hn⟩
      · rintro ⟨_, h⟩
        cases h with
        | interval hm hn => exact ⟨⟨_, hm⟩, ⟨_, hn⟩⟩

/-- Years that wrap around cover the end of the domain. -/
theorem Wraps.covers {item : Item Text} (h : item.Wraps .year) : item.Covers .year 9999 := by
  obtain ⟨hm, hn, hlt⟩ := h
  apply Item.Covers.toHighest hm hn hlt
  · exact Int.ofNat_le.mpr hm.mem_domain.2
  · exact Int.le_refl 9999

end Item

/-! ## Listings -/

/-- Spans are gathered from the items of legal listings and of no others. -/
theorem Gathered.exists_iff_legal (scale : Scale) (items : List (Item Text)) :
    (∃ spans, Gathered scale items spans) ↔ Listing.Legal ⟨scale, items⟩ := by
  have hitems : (∃ values, List.Forall₂ (Item.Denotes scale) items values) ↔
      ∀ item ∈ items, item.Legal scale := by
    simp only [Pointwise.exists_forall₂_iff, Item.legal_iff_exists_denotes]
  constructor
  · rintro ⟨_, ⟨hvalues, hyear⟩⟩
    refine ⟨hitems.mp ⟨_, hvalues⟩, ?_⟩
    rintro rfl
    have hnone : ¬Listing.Covers ⟨.year, items⟩ 9999 := by
      intro hcovers
      have hany := (Item.exists_covers_iff_anyCovers hvalues Scale.year.highest).mp hcovers
      rw [hyear rfl] at hany
      cases hany
    refine ⟨hnone, ?_⟩
    intro item hitem hwraps
    exact hnone ⟨item, hitem, hwraps.covers⟩
  · intro hlegal
    obtain ⟨values, hvalues⟩ := hitems.mpr hlegal.values
    refine ⟨_, Gathered.intro hvalues ?_⟩
    rintro rfl
    apply Bool.eq_false_iff.mpr
    intro hany
    apply (hlegal.years rfl).1
    exact (Item.exists_covers_iff_anyCovers hvalues Scale.year.highest).mpr hany

theorem Listing.exists_yields_iff (listing : Listing) :
    (∃ constraint, listing.Yields constraint) ↔ listing.Legal := by
  constructor
  · rintro ⟨constraint, -, hspans⟩
    exact (Gathered.exists_iff_legal _ _).mp ⟨constraint.2, hspans⟩
  · intro hlegal
    obtain ⟨spans, hspans⟩ := (Gathered.exists_iff_legal _ _).mpr hlegal
    exact ⟨(listing.scale, spans), rfl, hspans⟩

/-- Phrases with legal listings yield a period, and no others do. -/
theorem Phrase.exists_yields_iff (phrase : Phrase) :
    (∃ result, phrase.Yields result) ↔ ∀ listing ∈ phrase.listings, listing.Legal := by
  calc
    (∃ result, phrase.Yields result)
      ↔ ∃ constraints, List.Forall₂ Listing.Yields phrase.listings constraints := by
        constructor
        · rintro ⟨_, ⟨hconstraints⟩⟩
          exact ⟨_, hconstraints⟩
        · rintro ⟨_, hconstraints⟩
          exact ⟨_, Phrase.Yields.intro hconstraints⟩
    _ ↔ ∀ listing ∈ phrase.listings, ∃ constraint, listing.Yields constraint :=
        Pointwise.exists_forall₂_iff
    _ ↔ ∀ listing ∈ phrase.listings, listing.Legal := by
        simp only [Listing.exists_yields_iff]

/-! ## Clauses and expressions -/

/-- Grammatical clauses are read and no others are. -/
theorem exists_readClause_iff (t : Text) :
    (∃ result, (readClause t).outcome = .ok result) ↔
      Grammatical (Text.lowercase (Text.trim t)) := by
  constructor
  · rintro ⟨result, hread⟩
    obtain ⟨phrase, hwritten⟩ := exists_written_of_readClause hread
    refine ⟨phrase, hwritten, ?_⟩
    apply (Phrase.exists_yields_iff phrase).mp
    exact ⟨result, (readClause_eq_ok_iff hwritten result).mp hread⟩
  · rintro ⟨phrase, hwritten, hlegal⟩
    obtain ⟨result, hyields⟩ := (Phrase.exists_yields_iff phrase).mpr hlegal
    exact ⟨result, (readClause_eq_ok_iff hwritten result).mpr hyields⟩

/-- Expressions are read if and only if all their clauses are grammatical. -/
theorem exists_read_iff (t : Text) :
    (∃ periods, (read t).outcome = .ok periods) ↔
      ∀ piece ∈ clauseTexts t, Grammatical (Text.lowercase (Text.trim piece)) := by
  calc
    (∃ periods, (read t).outcome = .ok periods)
      ↔ ∃ results, List.Forall₂ (fun piece result => (readClause piece).outcome = .ok result)
          (clauseTexts t) results := by
        simp only [read, Logged.outcome_bind_eq_ok_iff, Logged.outcome_traverse_eq_ok_iff,
          Logged.outcome_pure]
        constructor
        · rintro ⟨_, results, hresults, -⟩
          exact ⟨results, hresults⟩
        · rintro ⟨results, hresults⟩
          exact ⟨_, results, hresults, rfl⟩
    _ ↔ ∀ piece ∈ clauseTexts t, ∃ result, (readClause piece).outcome = .ok result :=
        Pointwise.exists_forall₂_iff
    _ ↔ ∀ piece ∈ clauseTexts t, Grammatical (Text.lowercase (Text.trim piece)) := by
        simp only [exists_readClause_iff]

/-- The trimmed clauses of an expression have nothing in uppercase any more. -/
theorem lowercase_trim_of_mem {t piece : Text} (h : piece ∈ (normalized t).splitOn ',') :
    Text.lowercase (Text.trim piece) = Text.trim piece := by
  obtain ⟨before, after, -, -, hpiece⟩ := Text.exists_gap_trim piece
  apply Text.lowercase_eq_self
  intro c hc
  apply Text.mem_of_mem_splitOn _ h
  rw [hpiece]
  exact List.mem_append_right before (List.mem_append_left after hc)

/-- Commas and blanks are dropped at the end of an expression, blanks at its front, and capitals
become small. It is read if and only if nothing is left then, or all of its clauses are
grammatical. -/
theorem read_succeeds_iff (t : Text) :
    (∃ periods, (read t).outcome = .ok periods) ↔
      let normal := Text.lowercase (Text.trim
        (Text.dropEndWhile (fun c => c == ',' || Text.isBlank c) t))
      normal = [] ∨ ∀ piece ∈ normal.splitOn ',', Grammatical (Text.trim piece) := by
  change _ ↔ normalized t = [] ∨
    ∀ piece ∈ (normalized t).splitOn ',', Grammatical (Text.trim piece)
  rw [exists_read_iff, clauseTexts]
  by_cases hempty : normalized t = []
  · simp [hempty]
  · rw [if_neg (by simpa using hempty), or_iff_right hempty]
    apply forall₂_congr
    intro piece hpiece
    rw [lowercase_trim_of_mem hpiece]

/-- Neither a wide layout nor an empty body is in the way. -/
example :
    (read " NOT wd {Mon-Fri}hours\t{9am - 5pm 22},min \x7b\x7d, ,".toList).outcome.isOk = true := by
  decide +kernel

/-- The last year of the domain may not be covered. -/
example : (read "hr {9am-5pm}, yr {9998 - 9999}".toList).outcome.isOk = false := by
  decide +kernel

end Timetable.Expression
