import Timetable.Expression
import Timetable.Proofs.Expression.Clauses
import Timetable.Proofs.Pointwise
import Timetable.Proofs.Text.Divider

/-!
# Pieces between commas

An expression is written as phrases, one between each two commas. Commas and blanks at its end
do not count, and what is left when they are all of it is no phrase. The texts that are read one
by one are these pieces, in small letters and without the blanks in front of the first one.
-/

namespace Timetable.Text

/-- Commas and blanks do not count at the end of an expression. -/
def isTrailing (c : Char) : Bool := c == ',' || isBlank c

theorem isTrailing_iff (c : Char) : isTrailing c = true ↔ c = ',' ∨ isBlank c = true := by
  rw [isTrailing, Bool.or_eq_true, beq_iff_eq]

theorem dropEndWhile_eq_nil_iff {p : Char → Bool} {t : Text} :
    dropEndWhile p t = [] ↔ ∀ c ∈ t, p c = true := by
  rw [dropEndWhile, List.reverse_eq_nil_iff, List.dropWhile_eq_nil_iff]
  simp only [List.mem_reverse]

end Timetable.Text

namespace Timetable.Expression

open Text (IsGap isTrailing)

/-- The texts between the commas of an expression, but for commas and blanks at its end. -/
def subexpressions (t : Text) : List Text := (Text.dropEndWhile isTrailing t).splitOn ','

/-- The text is written as the phrases, one for each piece between commas. Commas and blanks alone
are written as no phrases. -/
inductive Written : List Phrase → Text → Prop
  | blank {t} (h : ∀ c ∈ t, c = ',' ∨ Text.isBlank c = true) : Written [] t
  | pieces {phrases t} (hne : ¬∀ c ∈ t, c = ',' ∨ Text.isBlank c = true)
      (h : List.Forall₂ (fun piece phrase => phrase.Written (Text.lowercase (Text.trim piece)))
        (subexpressions t) phrases) : Written phrases t

/-! ## The texts of the clauses -/

theorem dropEndWhile_isTrailing_eq_nil_iff {t : Text} :
    Text.dropEndWhile isTrailing t = [] ↔ ∀ c ∈ t, c = ',' ∨ Text.isBlank c = true := by
  simp only [Text.dropEndWhile_eq_nil_iff, Text.isTrailing_iff]

theorem normalized_eq_nil {t : Text} (h : Text.dropEndWhile isTrailing t = []) :
    normalized t = [] := congrArg (fun t => Text.lowercase (Text.trim t)) h

/-- Trimming an expression takes a gap away in front of the first of its pieces. -/
theorem exists_pieces_subexpressions {t : Text} (h : Text.dropEndWhile isTrailing t ≠ []) :
    ∃ gap first rest, IsGap gap ∧ subexpressions t = (gap ++ first) :: rest ∧
      clauseTexts t = (first :: rest).map Text.lowercase ∧
      ∀ piece ∈ first :: rest, ',' ∉ piece := by
  have hlast : ∀ c ∈ (Text.dropEndWhile isTrailing t).getLast?, Text.isBlank c = false := by
    intro c hc
    have htrailing := Text.getLast?_dropEndWhile isTrailing t c hc
    rw [isTrailing, Bool.or_eq_false_iff] at htrailing
    exact htrailing.2
  obtain ⟨gap, hgap, hcore⟩ := Text.exists_gap_trimStart (Text.dropEndWhile isTrailing t)
  have hstart := Text.trimStart_ne_nil h hlast
  have hnormalized : normalized t =
      Text.lowercase (Text.trimStart (Text.dropEndWhile isTrailing t)) :=
    congrArg Text.lowercase (Text.trim_of_getLast? hlast)
  obtain ⟨first, rest, hsplit⟩ := List.exists_cons_of_ne_nil
    (List.splitOn_ne_nil ',' (Text.trimStart (Text.dropEndWhile isTrailing t)))
  have hcomma : ∀ piece ∈ first :: rest, ',' ∉ piece := fun piece hpiece =>
    Text.notMem_of_mem_splitOn (hsplit ▸ hpiece)
  refine ⟨gap, first, rest, hgap, ?_, ?_, hcomma⟩
  · have hjoin : Text.dropEndWhile isTrailing t = [','].intercalate ((gap ++ first) :: rest) := by
      rw [Text.intercalate_cons, List.append_assoc, ← Text.intercalate_cons, ← hsplit,
        List.intercalate_splitOn]
      exact hcore
    rw [subexpressions, hjoin, List.splitOn_intercalate]
    · intro piece hpiece
      rcases List.mem_cons.mp hpiece with rfl | hpiece
      · rw [List.mem_append, not_or]
        exact ⟨hgap.notMem (by decide), hcomma first List.mem_cons_self⟩
      · exact hcomma piece (List.mem_cons_of_mem first hpiece)
    · exact List.cons_ne_nil _ _
  · rw [clauseTexts, hnormalized, if_neg, Text.splitOn_comma_lowercase, hsplit]
    rw [List.isEmpty_iff]
    exact Text.lowercase_ne_nil hstart

/-- The pieces of an expression are written as phrases just when the texts of its clauses are. -/
theorem written_iff (phrases : List Phrase) (t : Text) :
    Written phrases t ↔
      List.Forall₂ (fun piece phrase => phrase.Written (Text.lowercase (Text.trim piece)))
        (clauseTexts t) phrases := by
  by_cases hnil : Text.dropEndWhile isTrailing t = []
  · have hblank := dropEndWhile_isTrailing_eq_nil_iff.mp hnil
    rw [clauseTexts, normalized_eq_nil hnil, if_pos List.isEmpty_nil, List.forall₂_nil_left_iff]
    constructor
    · rintro (_ | ⟨hne, -⟩)
      · rfl
      · exact absurd hblank hne
    · rintro rfl
      exact .blank hblank
  · obtain ⟨gap, first, rest, hgap, hsub, htexts, -⟩ := exists_pieces_subexpressions hnil
    have hne := dropEndWhile_isTrailing_eq_nil_iff.not.mp hnil
    have hfirst : Text.trim (gap ++ first) = Text.trim first := by
      simpa using Text.trim_gap_append_append_gap hgap Text.isGap_nil first
    have hpieces : List.Forall₂
          (fun piece (phrase : Phrase) => phrase.Written (Text.lowercase (Text.trim piece)))
          (subexpressions t) phrases ↔
        List.Forall₂
          (fun piece (phrase : Phrase) => phrase.Written (Text.lowercase (Text.trim piece)))
          (clauseTexts t) phrases := by
      rw [hsub, htexts, List.forall₂_map_left_iff]
      simp only [List.forall₂_cons_left_iff, Text.lowercase_trim_lowercase, hfirst]
    rw [← hpieces]
    constructor
    · rintro (hblank | ⟨-, h⟩)
      · exact absurd hblank hne
      · exact h
    · exact .pieces hne

theorem Written.exists_written {phrases : List Phrase} {phrase : Phrase} {t : Text}
    (h : Written phrases t) (hphrase : phrase ∈ phrases) : ∃ u, phrase.Written u := by
  obtain ⟨piece, -, hwritten⟩ := Pointwise.exists_left ((written_iff phrases t).mp h) hphrase
  exact ⟨_, hwritten⟩

end Timetable.Expression
