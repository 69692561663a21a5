import Timetable.Proofs.Period.Printing

/-!
# Reading printed schedules

The text of a schedule is written as the phrases of its periods, first the
positive ones and then the negated ones, so reading a printed schedule depends
on these phrases alone.
-/

namespace Timetable

open Expression (Phrase)
open Text (IsGap IsPrinted)

/-! ## Expressions -/

/-- Nothing of a printed expression changes before it is cut into clauses. -/
theorem Expression.normalized_intercalate {pieces : List Text}
    (h : ∀ piece ∈ pieces, IsPrinted piece) (hne : pieces ≠ []) :
    normalized (", ".toList.intercalate pieces) = ", ".toList.intercalate pieces := by
  obtain ⟨hhead, hlast, hlower⟩ := Text.intercalate_isPrinted h hne
  have hend : ∀ c ∈ (", ".toList.intercalate pieces).getLast?,
      (c == ',' || Text.isBlank c) = false := by
    intro c hc
    obtain rfl : '\x7d' = c := Option.some.inj (hlast.symm.trans hc)
    decide
  have htrim : Text.trim (", ".toList.intercalate pieces) = ", ".toList.intercalate pieces := by
    apply Text.trim_gap_append Text.isGap_nil hhead
    intro c hc
    exact (Bool.or_eq_false_iff.mp (hend c hc)).2
  rw [normalized, Text.dropEndWhile_of_getLast? hend, htrim, hlower]

/-- Printed pieces are read as the phrases that they are. -/
theorem Expression.written_intercalate {pieces : List Text} {phrases : List Phrase}
    (hpieces : ∀ piece ∈ pieces, IsPrinted piece)
    (h : List.Forall₂ (fun piece phrase => phrase.Written piece) pieces phrases) :
    Written phrases (", ".toList.intercalate pieces) := by
  have hread : ∀ {gap piece : Text} {phrase : Phrase}, IsGap gap → IsPrinted piece →
      phrase.Written piece → phrase.Written (Text.lowercase (Text.trim (gap ++ piece))) := by
    intro gap piece phrase hgap hpiece hphrase
    rwa [hpiece.trim_gap_append hgap, hpiece.lowercase_eq]
  cases h with
  | nil => exact .blank (List.forall_mem_nil _)
  | @cons piece phrase rest phrases hphrase htail =>
      obtain ⟨hpiece, hrest⟩ := List.forall_mem_cons.mp hpieces
      have hne : ", ".toList.intercalate (piece :: rest) ≠ [] :=
        Text.intercalate_ne_nil (List.cons_ne_nil _ _) fun piece hmem => (hpieces piece hmem).ne_nil
      have htexts : clauseTexts (", ".toList.intercalate (piece :: rest)) =
          piece :: rest.map fun u => [' '] ++ u := by
        rw [clauseTexts, normalized_intercalate hpieces (List.cons_ne_nil _ _),
          if_neg (by simpa using hne), Text.splitOn_intercalate hpiece hrest]
      rw [written_iff, htexts]
      apply List.Forall₂.cons
      · exact hread Text.isGap_nil hpiece hphrase
      · apply List.forall₂_map_left_iff.mpr
        apply Pointwise.imp_of_mem htail
        intro u hu other _ hother
        exact hread Text.isGap_blank (hrest u hu) hother

/-! ## Schedules -/

namespace Schedule

/-- The phrases that a schedule is printed as. -/
def phrases (schedule : Schedule) : List Phrase :=
  schedule.positive.map (fun p => p.phrase false) ++ schedule.negative.map fun p => p.phrase true

/-- The texts of all periods. -/
def pieces (schedule : Schedule) : List Text :=
  schedule.positive.map Period.text ++ schedule.negative.map negatedText

theorem isPrinted_negatedText {p : Period} (h : p.constraints ≠ []) :
    IsPrinted (negatedText p) := by
  have hp := Period.isPrinted_text h
  constructor
  · exact Text.ofSymbols_append.mpr ⟨by decide, hp.symbols⟩
  · intro c hc
    obtain rfl : 'n' = c := by simpa [negatedText] using hc
    decide
  · rw [negatedText, List.getLast?_append, hp.stop]
    rfl

variable {schedule : Schedule}

theorem IsStored.isPrinted (h : schedule.IsStored) :
    ∀ piece ∈ schedule.pieces, IsPrinted piece := by
  intro piece hpiece
  rcases List.mem_append.mp hpiece with hpiece | hpiece
  · obtain ⟨p, hp, rfl⟩ := List.mem_map.mp hpiece
    exact Period.isPrinted_text (Period.constraints_ne_nil (h.positive p hp).constrained)
  · obtain ⟨p, hp, rfl⟩ := List.mem_map.mp hpiece
    exact isPrinted_negatedText (Period.constraints_ne_nil (h.negative p hp).constrained)

theorem IsStored.text_eq (h : schedule.IsStored) :
    schedule.text = ", ".toList.intercalate schedule.pieces := by
  apply Text.intercalate_filter
  · intro part hpart
    exact (h.isPrinted part (List.mem_append_left _ hpart)).ne_nil
  · intro part hpart
    exact (h.isPrinted part (List.mem_append_right _ hpart)).ne_nil

/-- The text of a schedule is written as the phrases of its periods. -/
theorem IsStored.written_text (h : schedule.IsStored) :
    Expression.Written schedule.phrases schedule.text := by
  have hlistings : ∀ {p : Period} (negative : Bool), p.IsStored →
      (p.phrase negative).listings ≠ [] := by
    intro p negative hp
    simpa [Period.phrase] using Period.constraints_ne_nil hp.constrained
  rw [h.text_eq]
  apply Expression.written_intercalate h.isPrinted
  apply List.rel_append
  · apply Pointwise.map_map_of_mem
    intro p hp
    exact Phrase.Written.plain (hlistings false (h.positive p hp)) (p.listingsWritten_text false)
  · apply Pointwise.map_map_of_mem
    intro p hp
    exact Phrase.Written.negated (by decide) (hlistings true (h.negative p hp))
      (p.listingsWritten_text true)

end Schedule

end Timetable
