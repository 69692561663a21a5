import Timetable.Proofs.Schedule.Reachable
import Timetable.Proofs.Span.Printing

/-!
# Reading printed periods

A period is printed as the phrase of its constraints. What is read from it, if
anything, is the period itself where the text of each span is legible. Otherwise
an hour 0 is lost, so that another period is read.
-/

namespace Timetable

open Expression (Listing ListingsWritten Phrase)
open Text (OfSymbols IsPrinted)

namespace Period

variable {p q : Period} {negative : Bool}

/-- The phrase that a period is printed as. -/
def phrase (p : Period) (negative : Bool) : Phrase :=
  ⟨negative, p.constraints.map fun c => ⟨c.1, c.2.map Span.item⟩⟩

/-- Each span of the period is read for its own values. -/
def IsLegible (p : Period) : Prop :=
  ∀ c ∈ p.constraints, ∀ span ∈ c.2, span.IsLegible c.1

instance (p : Period) : Decidable p.IsLegible :=
  inferInstanceAs (Decidable (∀ c ∈ p.constraints, ∀ span ∈ c.2, span.IsLegible c.1))

/-- Whether the period constrains the hours and allows hour 0. -/
def ListsMidnight (p : Period) : Prop :=
  ∃ spans, p.spans? .hour = some spans ∧ Span.anyCovers spans 0 = true

/-! ## Texts -/

theorem written_constraintText (c : Scale × List Span) :
    Listing.Written ⟨c.1, c.2.map Span.item⟩ (constraintText c) := by
  have hbrace : '\x7d' ∉ [' '] ++ ([' '].intercalate (c.2.map Span.text) ++ [' ']) := by
    intro h
    have hcases : '\x7d' ∈ [' '].intercalate (c.2.map Span.text) := by simpa using h
    rcases Text.mem_intercalate hcases with h | ⟨part, hpart, h⟩
    · revert h
      decide
    · obtain ⟨span, -, rfl⟩ := List.mem_map.mp hpart
      rcases Span.mem_text h with h | h <;> revert h <;> decide
  have hcode : (c.1, c.1.code) ∈ Scale.spellings := Scale.mem_spellings.mpr (Or.inr rfl)
  have hwritten := Listing.Written.intro hcode (Or.inl rfl) Text.isGap_blank hbrace
    (Span.itemsWritten_texts c.2)
  have htext : constraintText c = c.1.code ++ ([] ++ ([' '] ++ '\x7b' ::
      (([' '] ++ ([' '].intercalate (c.2.map Span.text) ++ [' '])) ++ ['\x7d']))) := by
    simp [constraintText]
  rw [htext]
  exact hwritten

/-- Constraints with a blank in front of each are written as listings. -/
theorem listingsWritten_flatMap (constraints : List (Scale × List Span)) :
    ListingsWritten (constraints.map fun c => ⟨c.1, c.2.map Span.item⟩)
      ((constraints.map constraintText).flatMap fun t => [' '] ++ t) := by
  induction constraints with
  | nil => exact ListingsWritten.nil Text.isGap_nil
  | cons c rest ih =>
      simp only [List.map_cons, List.flatMap_cons, List.append_assoc]
      exact ListingsWritten.cons Text.isGap_blank (written_constraintText c) ih

theorem listingsWritten_text (p : Period) (negative : Bool) :
    ListingsWritten (p.phrase negative).listings p.text := by
  unfold phrase text
  cases p.constraints with
  | nil => exact ListingsWritten.nil Text.isGap_nil
  | cons c rest =>
      have hwritten := ListingsWritten.cons Text.isGap_nil (written_constraintText c)
        (listingsWritten_flatMap rest)
      rw [List.map_cons, List.map_cons, show " ".toList = [' '] from rfl, Text.intercalate_cons]
      exact hwritten

theorem ofSymbols_constraintText (c : Scale × List Span) : OfSymbols (constraintText c) := by
  have hcode : ∀ scale ∈ Scale.all, OfSymbols scale.code := by decide
  refine Text.ofSymbols_append.mpr ⟨Text.ofSymbols_append.mpr ⟨Text.ofSymbols_append.mpr
    ⟨hcode c.1 (Scale.mem_all c.1), by decide⟩, ?_⟩, by decide⟩
  apply Text.ofSymbols_intercalate
  · decide
  · intro part hpart d hd
    obtain ⟨span, -, rfl⟩ := List.mem_map.mp hpart
    apply (Span.mem_text hd).imp_right
    rintro rfl
    decide

theorem isPrinted_text {p : Period} (h : p.constraints ≠ []) : IsPrinted p.text := by
  have hmem : ∀ {part}, part ∈ p.constraints.map constraintText → ∃ c, constraintText c = part :=
    fun hpart => (List.mem_map.mp hpart).imp fun _ hc => hc.2
  constructor
  · apply Text.ofSymbols_intercalate
    · decide
    · intro part hpart
      obtain ⟨c, rfl⟩ := hmem hpart
      exact ofSymbols_constraintText c
  · obtain ⟨c, rest, hconstraints⟩ := List.exists_cons_of_ne_nil h
    have hcode : (c.1, c.1.code) ∈ Scale.spellings := Scale.mem_spellings.mpr (Or.inr rfl)
    obtain ⟨d, hd, hhead⟩ := Scale.exists_initial hcode
    obtain ⟨code, hfirst⟩ := List.head?_eq_some_iff.mp hhead
    have hne : constraintText c ≠ [] := by simp [constraintText, hfirst]
    intro e he
    rw [text, hconstraints, List.map_cons, Text.head?_intercalate hne, constraintText,
      hfirst] at he
    obtain rfl : d = e := by simpa using he
    exact Scale.isBlank_of_mem_initials hd
  · apply Text.getLast?_intercalate
    · simpa using h
    · intro part hpart
      obtain ⟨c, rfl⟩ := hmem hpart
      rw [constraintText, List.getLast?_append]
      rfl

theorem constraints_ne_nil {p : Period} (h : p.isUnconstrained = false) : p.constraints ≠ [] := by
  obtain ⟨scale, spans, hspans⟩ := (isUnconstrained_eq_false_iff p).mp h
  exact List.ne_nil_of_mem ((mem_constraints p scale spans).mpr hspans)

/-! ## What the texts are read for -/

theorem yields_phrase_iff (p : Period) (negative : Bool) (result : Period × Bool) :
    (p.phrase negative).Yields result ↔
      ∃ constraints, List.Forall₂ (fun c d => d.1 = c.1 ∧
          Expression.Gathered c.1 (c.2.map Span.item) d.2) p.constraints constraints ∧
        result = (ofConstraints constraints, negative) := by
  constructor
  · rintro ⟨hconstraints⟩
    exact ⟨_, List.forall₂_map_left_iff.mp hconstraints, rfl⟩
  · rintro ⟨constraints, hconstraints, rfl⟩
    exact Phrase.Yields.intro (List.forall₂_map_left_iff.mpr hconstraints)

/-- Legible periods are read for themselves. -/
theorem IsLegible.yields_phrase (hlegible : p.IsLegible) (hp : p.IsStored) (negative : Bool) :
    (p.phrase negative).Yields (p, negative) := by
  refine (yields_phrase_iff p negative _).mpr ⟨p.constraints, ?_, ?_⟩
  · apply List.forall₂_same.mpr
    intro c hc
    have hspans := (mem_constraints p c.1 c.2).mp hc
    exact ⟨rfl, Span.gathered_of_isLegible (hp.gathered c.1 c.2 hspans) (hlegible c hc)⟩
  · rw [ofConstraints_constraints]

/-- A period is legible when no span of it is misread. -/
theorem IsStored.isLegible_iff (hp : p.IsStored) :
    p.IsLegible ↔ ∀ scale spans, p.spans? scale = some spans → ∀ span ∈ spans,
      ¬span.IsMisread scale := by
  constructor
  · intro hlegible scale spans hspans span hspan
    apply ((hp.gathered scale spans hspans).isLegible_iff hspan).mp
    exact hlegible (scale, spans) ((mem_constraints p scale spans).mpr hspans) span hspan
  · intro hkeep c hc span hspan
    have hspans := (mem_constraints p c.1 c.2).mp hc
    apply ((hp.gathered c.1 c.2 hspans).isLegible_iff hspan).mpr
    exact hkeep c.1 c.2 hspans span hspan

/-- What is read for a printed period is the period itself if that is legible, and lacks an
hour 0 that the period has otherwise. -/
theorem cases_of_yields_phrase (hp : p.IsStored) (h : (p.phrase negative).Yields (q, negative)) :
    (p.IsLegible ∧ q = p) ∨ (¬p.IsLegible ∧ p.ListsMidnight ∧ ¬q.ListsMidnight) := by
  obtain ⟨constraints, hconstraints, hq⟩ := (yields_phrase_iff p negative _).mp h
  obtain rfl : q = ofConstraints constraints := congrArg Prod.fst hq
  have hcases : ∀ c ∈ p.constraints, ∀ d, Expression.Gathered c.1 (c.2.map Span.item) d →
      ((∀ span ∈ c.2, span.IsLegible c.1) ∧ d = c.2) ∨
        ((¬∀ span ∈ c.2, span.IsLegible c.1) ∧ c.1 = .hour ∧ Span.anyCovers c.2 0 = true ∧
          Span.anyCovers d 0 = false) := fun c hc d hd =>
    Span.cases_of_gathered (hp.gathered c.1 c.2 ((mem_constraints p c.1 c.2).mp hc)) hd
  by_cases hlegible : p.IsLegible
  · refine Or.inl ⟨hlegible, ?_⟩
    have hsame : List.Forall₂ Eq p.constraints constraints := by
      apply Pointwise.imp_of_mem hconstraints
      intro c hc d _ hcd
      rcases hcases c hc d.2 hcd.2 with ⟨-, hd⟩ | ⟨hbad, -⟩
      · exact (Prod.ext hcd.1 hd).symm
      · exact absurd (hlegible c hc) hbad
    rw [List.forall₂_eq_eq_eq] at hsame
    rw [← hsame, ofConstraints_constraints]
  · refine Or.inr ⟨hlegible, ?_⟩
    have hkeys : p.constraints.map Prod.fst = constraints.map Prod.fst := by
      rw [← List.forall₂_eq_eq_eq, List.forall₂_map_left_iff, List.forall₂_map_right_iff]
      exact hconstraints.imp fun _ _ hcd => hcd.1.symm
    obtain ⟨c, hc, hbad⟩ : ∃ c ∈ p.constraints, ¬∀ span ∈ c.2, span.IsLegible c.1 := by
      simpa only [IsLegible, not_forall, exists_prop] using hlegible
    have hspans := (mem_constraints p c.1 c.2).mp hc
    obtain ⟨d, -, -, hd⟩ := Pointwise.exists_right hconstraints hc
    obtain ⟨-, hhour, hcovers, -⟩ := (hcases c hc d.2 hd).resolve_left fun hkeep => hbad hkeep.1
    rw [hhour] at hspans
    refine ⟨⟨c.2, hspans, hcovers⟩, ?_⟩
    rintro ⟨others, hothers, hzero⟩
    rw [spans?_ofConstraints_eq_some_iff (hkeys ▸ p.nodup_constraints)] at hothers
    obtain ⟨e, he, hscale, hgathered⟩ := Pointwise.exists_left hconstraints hothers
    obtain rfl : e = c := by
      have hown := (mem_constraints p e.1 e.2).mp he
      rw [← hscale, hspans] at hown
      exact Prod.ext (hscale.symm.trans hhour.symm) (Option.some.inj hown).symm
    rcases hcases e he others hgathered with ⟨hkeep, -⟩ | ⟨-, -, -, hnone⟩
    · exact hbad hkeep
    · rw [hnone] at hzero
      cases hzero

end Period

end Timetable
