import Timetable.Proofs.Expression.Reading
import Timetable.Proofs.Text.Divider

/-!
# Expressions that are joined by commas

An expression may be put together from texts without commas. What is cut off at
its ends are blanks of the first text and of the last one, and the commas behind
the last one. So the pieces between its commas are the texts up to blanks and to
the case of their letters, neither of which a clause depends on.
-/

namespace Timetable.Text

/-- The text may stand between commas: it has none itself, but some character to read. -/
structure IsPiece (t : Text) : Prop where
  comma_notMem : ',' ∉ t
  not_isGap : ¬IsGap t

/-- Of a text that goes on with more than what is dropped only the end of the rest is
dropped. -/
theorem dropEndWhile_append_of_ne_nil {p : Char → Bool} {t : Text}
    (h : dropEndWhile p t ≠ []) (s : Text) : dropEndWhile p (s ++ t) = s ++ dropEndWhile p t := by
  have hrev : (t.reverse.dropWhile p).isEmpty = false := by
    simpa [dropEndWhile] using h
  rw [dropEndWhile, List.reverse_append, List.dropWhile_append, hrev]
  simp [dropEndWhile]

theorem IsPiece.ne_nil {t : Text} (h : IsPiece t) : t ≠ [] := by
  intro ht
  apply h.not_isGap
  rw [ht]
  exact isGap_nil

theorem IsPiece.trimStart {t : Text} (h : IsPiece t) : IsPiece (trimStart t) := by
  obtain ⟨gap, hgap, ht⟩ := exists_gap_trimStart t
  constructor
  · intro hcomma
    apply h.comma_notMem
    rw [ht]
    exact List.mem_append_right gap hcomma
  · intro hstart
    apply h.not_isGap
    rw [ht]
    exact isGap_append.mpr ⟨hgap, hstart⟩

theorem IsPiece.trimEnd {t : Text} (h : IsPiece t) : IsPiece (trimEnd t) := by
  obtain ⟨gap, hgap, ht⟩ := exists_gap_trimEnd t
  constructor
  · intro hcomma
    apply h.comma_notMem
    rw [ht]
    exact List.mem_append_left gap hcomma
  · intro hend
    apply h.not_isGap
    rw [ht]
    exact isGap_append.mpr ⟨hend, hgap⟩

theorem IsPiece.dropEndWhile_isTrailing {t : Text} (h : IsPiece t) :
    dropEndWhile isTrailing t = Text.trimEnd t := by
  obtain ⟨gap, hgap, ht⟩ := exists_gap_trimEnd t
  have htrailing : ∀ c ∈ gap, isTrailing c = true := fun c hc =>
    (isTrailing_iff c).mpr (Or.inr (hgap c hc))
  calc
    dropEndWhile isTrailing t = dropEndWhile isTrailing (Text.trimEnd t ++ gap) := by rw [← ht]
    _ = dropEndWhile isTrailing (Text.trimEnd t) := dropEndWhile_append_of_pos htrailing _
    _ = Text.trimEnd t := by
        apply dropEndWhile_of_getLast?
        intro c hc
        apply Bool.eq_false_iff.mpr
        intro htrailing
        have hblank : isBlank c = false := getLast?_dropEndWhile isBlank t c hc
        rcases (isTrailing_iff c).mp htrailing with rfl | hc'
        · exact h.trimEnd.comma_notMem (List.mem_of_getLast? hc)
        · rw [hblank] at hc'
          cases hc'

/-- The text and the piece are one piece up to gaps at their ends. -/
def SamePiece (t piece : Text) : Prop := IsPiece piece ∧ trim piece = trim t

/-- At the end of joined texts only the last one loses blanks. -/
theorem exists_pieces_dropEndWhile {texts : List Text} (hne : texts ≠ [])
    (htexts : ∀ t ∈ texts, IsPiece t) :
    ∃ pieces, List.Forall₂ SamePiece texts pieces ∧
      dropEndWhile isTrailing ([','].intercalate texts) = [','].intercalate pieces := by
  induction texts with
  | nil => exact absurd rfl hne
  | cons t rest ih =>
      obtain ⟨ht, hrest⟩ := List.forall_mem_cons.mp htexts
      cases rest with
      | nil =>
          refine ⟨[Text.trimEnd t], .cons ⟨ht.trimEnd, trim_trimEnd t⟩ .nil, ?_⟩
          rw [List.intercalate_singleton, List.intercalate_singleton, ht.dropEndWhile_isTrailing]
      | cons next rest =>
          obtain ⟨pieces, hpieces, hjoin⟩ := ih (List.cons_ne_nil _ _) hrest
          have hpieces_ne : pieces ≠ [] := by
            rintro rfl
            cases hpieces
          have hjoin_ne : [','].intercalate pieces ≠ [] := by
            apply intercalate_ne_nil hpieces_ne
            intro piece hpiece
            obtain ⟨_, -, hsame⟩ := Pointwise.exists_left hpieces hpiece
            exact hsame.1.ne_nil
          refine ⟨t :: pieces, .cons ⟨ht, rfl⟩ hpieces, ?_⟩
          calc
            dropEndWhile isTrailing ([','].intercalate (t :: next :: rest))
              = dropEndWhile isTrailing ((t ++ [',']) ++ [','].intercalate (next :: rest)) := by
                rw [List.intercalate_cons_cons]
            _ = (t ++ [',']) ++ [','].intercalate pieces := by
                rw [dropEndWhile_append_of_ne_nil (by rwa [hjoin]), hjoin]
            _ = [','].intercalate (t :: pieces) := by
                rw [List.intercalate_cons_of_ne_nil hpieces_ne]

/-- At the start of joined texts only the first one loses blanks. -/
theorem exists_pieces_trim {texts : List Text} (hne : texts ≠ [])
    (htexts : ∀ t ∈ texts, IsPiece t)
    (hlast : ∀ c ∈ ([','].intercalate texts).getLast?, isBlank c = false) :
    ∃ pieces, List.Forall₂ SamePiece texts pieces ∧
      trim ([','].intercalate texts) = [','].intercalate pieces := by
  obtain ⟨first, rest, rfl⟩ := List.exists_cons_of_ne_nil hne
  obtain ⟨hfirst, hrest⟩ := List.forall_mem_cons.mp htexts
  obtain ⟨gap, hgap, hsplit⟩ := exists_gap_trimStart first
  have hjoin : [','].intercalate (first :: rest) =
      gap ++ [','].intercalate (trimStart first :: rest) := by
    rw [intercalate_cons, intercalate_cons, ← List.append_assoc, ← hsplit]
  have hstart := hfirst.trimStart
  have hjoin_ne : [','].intercalate (trimStart first :: rest) ≠ [] := by
    rw [intercalate_cons]
    exact List.append_ne_nil_of_left_ne_nil hstart.ne_nil _
  refine ⟨trimStart first :: rest, .cons ⟨hstart, trim_trimStart first⟩ ?_, ?_⟩
  · apply List.forall₂_same.mpr
    intro t ht
    exact ⟨hrest t ht, rfl⟩
  · rw [hjoin, List.getLast?_append_of_ne_nil _ hjoin_ne] at hlast
    rw [hjoin]
    apply trim_gap_append hgap _ hlast
    rw [head?_intercalate hstart.ne_nil]
    intro c hc
    obtain ⟨tail, htail⟩ := List.head?_eq_some_iff.mp hc
    exact head_trimStart htail

/-- Joined texts are trimmed to joined pieces, one for each of them. -/
theorem exists_pieces_joined {texts : List Text} {tail : Text} (hne : texts ≠ [])
    (htexts : ∀ t ∈ texts, IsPiece t) (htail : ∀ c ∈ tail, isTrailing c = true) :
    ∃ pieces, List.Forall₂ SamePiece texts pieces ∧
      trim (dropEndWhile isTrailing ([','].intercalate texts ++ tail)) =
        [','].intercalate pieces := by
  obtain ⟨middles, hmiddles, hdrop⟩ := exists_pieces_dropEndWhile hne htexts
  have hmiddles_ne : middles ≠ [] := by
    rintro rfl
    exact hne (List.forall₂_nil_right_iff.mp hmiddles)
  have hpieces : ∀ piece ∈ middles, IsPiece piece := by
    intro piece hpiece
    obtain ⟨_, -, hsame⟩ := Pointwise.exists_left hmiddles hpiece
    exact hsame.1
  have hlast : ∀ c ∈ ([','].intercalate middles).getLast?, isBlank c = false := by
    rw [← hdrop]
    intro c hc
    have htrailing := getLast?_dropEndWhile isTrailing _ c hc
    rw [isTrailing, Bool.or_eq_false_iff] at htrailing
    exact htrailing.2
  obtain ⟨pieces, hsame, htrim⟩ := exists_pieces_trim hmiddles_ne hpieces hlast
  refine ⟨pieces, Pointwise.trans hmiddles hsame ?_, ?_⟩
  · intro t middle piece hone htwo
    exact ⟨htwo.1, htwo.2.trans hone.2⟩
  · rw [dropEndWhile_append_of_pos htail, hdrop, htrim]

end Timetable.Text

namespace Timetable.Expression

open Text (IsPiece SamePiece isTrailing)

variable {texts : List Text} {tail : Text}

/-- The clauses of joined texts are the lowercase pieces that the texts are trimmed to. -/
theorem exists_pieces_clauseTexts (hne : texts ≠ []) (htexts : ∀ t ∈ texts, IsPiece t)
    (htail : ∀ c ∈ tail, isTrailing c = true) :
    ∃ pieces, List.Forall₂ SamePiece texts pieces ∧
      clauseTexts ([','].intercalate texts ++ tail) = pieces.map Text.lowercase := by
  obtain ⟨pieces, hpieces, htrim⟩ := Text.exists_pieces_joined hne htexts htail
  have hpiece : ∀ piece ∈ pieces, IsPiece piece := by
    intro piece hpiece
    obtain ⟨_, -, hsame⟩ := Pointwise.exists_left hpieces hpiece
    exact hsame.1
  have hpieces_ne : pieces.map Text.lowercase ≠ [] := by
    intro hnil
    rw [List.map_eq_nil_iff.mp hnil] at hpieces
    exact hne (List.forall₂_nil_right_iff.mp hpieces)
  have hnormalized : normalized ([','].intercalate texts ++ tail) =
      [','].intercalate (pieces.map Text.lowercase) := by
    calc
      normalized ([','].intercalate texts ++ tail)
        = Text.lowercase ([','].intercalate pieces) := congrArg Text.lowercase htrim
      _ = [','].intercalate (pieces.map Text.lowercase) := Text.lowercase_intercalate_comma pieces
  refine ⟨pieces, hpieces, ?_⟩
  rw [clauseTexts, hnormalized, if_neg, List.splitOn_intercalate]
  · intro t ht
    obtain ⟨piece, hmem, rfl⟩ := List.mem_map.mp ht
    intro hcomma
    exact (hpiece piece hmem).comma_notMem (Text.mem_of_mem_lowercaseAfter hcomma (by decide))
  · exact hpieces_ne
  · rw [List.isEmpty_iff]
    apply Text.intercalate_ne_nil hpieces_ne
    intro t ht
    obtain ⟨piece, hmem, rfl⟩ := List.mem_map.mp ht
    exact Text.lowercase_ne_nil (hpiece piece hmem).ne_nil

/-- A clause is read alike with and without gaps around it and in either case. -/
theorem readClause_lowercase {t piece : Text} (h : SamePiece t piece) :
    readClause (Text.lowercase piece) = readClause t := by
  have hlower : Text.lowercase (Text.trim (Text.lowercase piece)) =
      Text.lowercase (Text.trim t) := by
    rw [Text.lowercase_trim_lowercase, h.2]
  simp only [readClause, hlower]

theorem traverse_readClause_lowercase {pieces : List Text}
    (h : List.Forall₂ SamePiece texts pieces) :
    Logged.traverse readClause (pieces.map Text.lowercase) =
      Logged.traverse readClause texts := by
  induction h with
  | nil => rfl
  | cons hsame _ ih => simp only [List.map_cons, Logged.traverse, readClause_lowercase hsame, ih]

/-- Joined texts are read one after the other, each as a clause by itself. -/
theorem read_joined (hne : texts ≠ []) (htexts : ∀ t ∈ texts, IsPiece t)
    (htail : ∀ c ∈ tail, isTrailing c = true) :
    read ([','].intercalate texts ++ tail) =
      Logged.traverse readClause texts >>= fun results => pure (parted results) := by
  obtain ⟨pieces, hpieces, hclauses⟩ := exists_pieces_clauseTexts hne htexts htail
  rw [read, hclauses, traverse_readClause_lowercase hpieces]
  rfl

end Timetable.Expression
