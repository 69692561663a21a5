import Timetable.Proofs.Text.Gap
import Timetable.Proofs.Text.Lowercase

/-!
# Printed texts

Schedules are printed in lowercase letters, digits and a few marks, none of
which changes in the lowercase form of a text. Printed pieces have no blanks at
their ends and no commas, so that trimming leaves them alone and splitting at
commas finds them again.
-/

namespace Timetable.Text

/-! ## Texts with separators -/

variable {sep part : Text} {rest parts : List Text}

/-- In a joined text every part but the first has a separator in front. -/
theorem intercalate_cons (sep part : Text) (rest : List Text) :
    sep.intercalate (part :: rest) = part ++ rest.flatMap fun t => sep ++ t := by
  induction rest generalizing part with
  | nil => rw [List.intercalate_singleton, List.flatMap_nil, List.append_nil]
  | cons next rest ih =>
      calc
        sep.intercalate (part :: next :: rest)
          = part ++ (sep ++ sep.intercalate (next :: rest)) := by
            rw [List.intercalate_cons_cons, List.append_assoc]
        _ = part ++ (next :: rest).flatMap fun t => sep ++ t := by
            rw [ih next, List.flatMap_cons, List.append_assoc]

theorem mem_intercalate {c : Char} (h : c ∈ sep.intercalate parts) :
    c ∈ sep ∨ ∃ part ∈ parts, c ∈ part := by
  cases parts with
  | nil => exact absurd h List.not_mem_nil
  | cons part rest =>
      rw [intercalate_cons, List.mem_append, List.mem_flatMap] at h
      rcases h with h | ⟨other, hother, h⟩
      · exact Or.inr ⟨part, List.mem_cons_self, h⟩
      · apply (List.mem_append.mp h).imp_right
        intro hc
        exact ⟨other, List.mem_cons_of_mem part hother, hc⟩

theorem mem_intercalate_of_mem {c : Char} (hc : c ∈ part) (h : part ∈ parts) :
    c ∈ sep.intercalate parts := by
  obtain ⟨first, rest, rfl⟩ := List.exists_cons_of_ne_nil (List.ne_nil_of_mem h)
  rw [intercalate_cons, List.mem_append, List.mem_flatMap]
  rcases List.mem_cons.mp h with rfl | h
  · exact Or.inl hc
  · exact Or.inr ⟨part, h, List.mem_append_right sep hc⟩

/-- Splitting a text makes up no characters. -/
theorem mem_of_mem_splitOn {c mark : Char} {t piece : Text} (hc : c ∈ piece)
    (h : piece ∈ t.splitOn mark) : c ∈ t := by
  have hjoin : [mark].intercalate (t.splitOn mark) = t := List.intercalate_splitOn mark
  rw [← hjoin]
  exact mem_intercalate_of_mem hc h

/-- A text is split at every place where it has the mark. -/
theorem notMem_of_mem_splitOn {mark : Char} {t piece : Text} (h : piece ∈ t.splitOn mark) :
    mark ∉ piece := by
  induction t generalizing piece with
  | nil =>
      obtain rfl : piece = [] := by simpa [List.splitOn_nil] using h
      exact List.not_mem_nil
  | cons c t ih =>
      rw [List.splitOn_cons_eq_if_modifyHead] at h
      split at h
      · rcases List.mem_cons.mp h with rfl | h
        · exact List.not_mem_nil
        · exact ih h
      · next hc =>
          obtain ⟨first, rest, hsplit⟩ := List.exists_cons_of_ne_nil (List.splitOn_ne_nil mark t)
          rw [hsplit] at ih h
          rcases List.mem_cons.mp h with rfl | h
          · have hne : mark ≠ c := fun he => hc (beq_iff_eq.mpr he.symm)
            simpa [hne] using ih List.mem_cons_self
          · exact ih (List.mem_cons_of_mem _ h)

/-- A joined text starts like its first part. -/
theorem head?_intercalate (hne : part ≠ []) :
    (sep.intercalate (part :: rest)).head? = part.head? := by
  rw [intercalate_cons, List.head?_append_of_ne_nil _ hne]

/-- A joined text ends like its parts. -/
theorem getLast?_intercalate {c : Char} (hne : parts ≠ [])
    (h : ∀ part ∈ parts, part.getLast? = some c) : (sep.intercalate parts).getLast? = some c := by
  induction parts with
  | nil => exact absurd rfl hne
  | cons part rest ih =>
      obtain ⟨hpart, hparts⟩ := List.forall_mem_cons.mp h
      by_cases hrest : rest = []
      · subst hrest
        rwa [List.intercalate_singleton]
      · rw [List.intercalate_cons_of_ne_nil hrest, List.getLast?_append, ih hrest hparts]
        rfl

/-- A joined text may be cut between two parts. -/
theorem intercalate_append {lefts rights : List Text} (hl : lefts ≠ []) (hr : rights ≠ []) :
    sep.intercalate (lefts ++ rights) =
      sep.intercalate lefts ++ (sep ++ sep.intercalate rights) := by
  obtain ⟨l, ls, rfl⟩ := List.exists_cons_of_ne_nil hl
  obtain ⟨r, rs, rfl⟩ := List.exists_cons_of_ne_nil hr
  rw [List.cons_append, intercalate_cons, intercalate_cons, intercalate_cons, List.flatMap_append,
    List.flatMap_cons, List.append_assoc, List.append_assoc]

theorem intercalate_ne_nil (hne : parts ≠ []) (h : ∀ part ∈ parts, part ≠ []) :
    sep.intercalate parts ≠ [] := by
  obtain ⟨part, rest, rfl⟩ := List.exists_cons_of_ne_nil hne
  rw [intercalate_cons]
  exact List.append_ne_nil_of_left_ne_nil (h part List.mem_cons_self) _

/-- Lists of parts are joined like one list, if those without parts are left out. -/
theorem intercalate_filter {lefts rights : List Text}
    (hl : ∀ part ∈ lefts, part ≠ []) (hr : ∀ part ∈ rights, part ≠ []) :
    sep.intercalate ([sep.intercalate lefts, sep.intercalate rights].filter
        fun t => !t.isEmpty) =
      sep.intercalate (lefts ++ rights) := by
  by_cases hlefts : lefts = []
  · subst hlefts
    by_cases hrights : rights = []
    · subst hrights
      rfl
    · have hright := @intercalate_ne_nil sep rights hrights hr
      simp [hright]
  · have hleft := @intercalate_ne_nil sep lefts hlefts hl
    by_cases hrights : rights = []
    · subst hrights
      simp [hleft]
    · have hright := @intercalate_ne_nil sep rights hrights hr
      rw [intercalate_append hlefts hrights]
      simp [hleft, hright, List.intercalate_cons_cons]

/-- The rest of a separator may count among the parts behind it. -/
theorem intercalate_cons_sep (c : Char) (sep part : Text) (rest : List Text) :
    (c :: sep).intercalate (part :: rest) =
      [c].intercalate (part :: rest.map fun t => sep ++ t) := by
  rw [intercalate_cons, intercalate_cons, List.flatMap_map]
  rfl

/-! ## Ends without blanks -/

theorem dropEndWhile_of_getLast? {p : Char → Bool} {t : Text}
    (h : ∀ c ∈ t.getLast?, p c = false) : dropEndWhile p t = t := by
  have hkeep : t.reverse.dropWhile p = t.reverse := by
    cases hrev : t.reverse with
    | nil => rfl
    | cons c rest =>
        have hc := h c (by rw [← List.head?_reverse, hrev]; rfl)
        rw [List.dropWhile_cons, if_neg (by simp [hc])]
  rw [dropEndWhile, hkeep, List.reverse_reverse]

theorem dropEndWhile_append_of_pos {p : Char → Bool} {s : Text} (h : ∀ c ∈ s, p c = true)
    (t : Text) : dropEndWhile p (t ++ s) = dropEndWhile p t := by
  have hrev : ∀ c ∈ s.reverse, p c = true := fun c hc => h c (List.mem_reverse.mp hc)
  rw [dropEndWhile, List.reverse_append, List.dropWhile_append_of_pos hrev, dropEndWhile]

/-- A text without blanks at its ends is what trimming leaves of it and gaps around it. -/
theorem trim_gap_append_gap {before after t : Text} (hbefore : IsGap before)
    (hafter : IsGap after) (hhead : ∀ c ∈ t.head?, isBlank c = false)
    (hlast : ∀ c ∈ t.getLast?, isBlank c = false) : trim (before ++ (t ++ after)) = t := by
  rw [trim, trimStart_gap_append hbefore]
  cases t with
  | nil =>
      have hnil : trimStart after = [] := (trimStart_eq_nil_iff after).mpr hafter
      rw [List.nil_append, hnil]
      rfl
  | cons c rest =>
      rw [List.cons_append, trimStart_of_head (hhead c rfl), trimEnd, ← List.cons_append,
        dropEndWhile_append_of_pos hafter, dropEndWhile_of_getLast? hlast]

theorem getLast?_dropEndWhile (p : Char → Bool) (t : Text) :
    ∀ c ∈ (dropEndWhile p t).getLast?, p c = false := by
  intro c hc
  have hhead := List.head?_dropWhile_not p t.reverse
  rw [dropEndWhile, List.getLast?_reverse] at hc
  rw [Option.mem_def.mp hc] at hhead
  simpa using hhead

theorem head?_trimStart (t : Text) : ∀ c ∈ (trimStart t).head?, isBlank c = false := by
  intro c hc
  obtain ⟨rest, hrest⟩ := List.head?_eq_some_iff.mp hc
  exact head_trimStart hrest

theorem head?_trim (t : Text) : ∀ c ∈ (trim t).head?, isBlank c = false := by
  intro c hc
  obtain ⟨gap, -, hgap⟩ := exists_gap_trimEnd (trimStart t)
  have htrim : trimStart t = trim t ++ gap := hgap
  obtain ⟨rest, hrest⟩ := List.head?_eq_some_iff.mp hc
  rw [hrest] at htrim
  exact head_trimStart htrim

theorem getLast?_trim (t : Text) : ∀ c ∈ (trim t).getLast?, isBlank c = false :=
  getLast?_dropEndWhile isBlank (trimStart t)

/-- Gaps around a text do not count when it is trimmed. -/
theorem trim_gap_append_append_gap {before after : Text} (hbefore : IsGap before)
    (hafter : IsGap after) (t : Text) : trim (before ++ (t ++ after)) = trim t := by
  obtain ⟨first, last, hfirst, hlast, ht⟩ := exists_gap_trim t
  calc
    trim (before ++ (t ++ after))
      = trim ((before ++ first) ++ (trim t ++ (last ++ after))) := by
        conv_lhs => rw [ht]
        simp only [List.append_assoc]
    _ = trim t := trim_gap_append_gap (isGap_append.mpr ⟨hbefore, hfirst⟩)
        (isGap_append.mpr ⟨hlast, hafter⟩) (head?_trim t) (getLast?_trim t)

theorem trim_trimStart (t : Text) : trim (trimStart t) = trim t := by
  obtain ⟨gap, hgap, ht⟩ := exists_gap_trimStart t
  calc
    trim (trimStart t) = trim (gap ++ (trimStart t ++ [])) :=
      (trim_gap_append_append_gap hgap isGap_nil _).symm
    _ = trim t := by rw [List.append_nil, ← ht]

theorem trim_trimEnd (t : Text) : trim (trimEnd t) = trim t := by
  obtain ⟨gap, hgap, ht⟩ := exists_gap_trimEnd t
  calc
    trim (trimEnd t) = trim ([] ++ (trimEnd t ++ gap)) :=
      (trim_gap_append_append_gap isGap_nil hgap _).symm
    _ = trim t := by rw [List.nil_append, ← ht]

/-- A text that ends with no blank is trimmed at its start only. -/
theorem trim_of_getLast? {t : Text} (h : ∀ c ∈ t.getLast?, isBlank c = false) :
    trim t = trimStart t := by
  apply dropEndWhile_of_getLast?
  obtain ⟨gap, -, ht⟩ := exists_gap_trimStart t
  cases hstart : trimStart t with
  | nil => exact fun c hc => absurd hc (Option.not_mem_none c)
  | cons c rest =>
      rwa [ht, hstart, List.getLast?_append_of_ne_nil _ (List.cons_ne_nil c rest)] at h

theorem trimStart_ne_nil {t : Text} (hne : t ≠ []) (h : ∀ c ∈ t.getLast?, isBlank c = false) :
    trimStart t ≠ [] := by
  intro hnil
  have hblank := (trimStart_eq_nil_iff t).mp hnil _ (List.getLast_mem hne)
  rw [h _ (List.getLast?_eq_getLast_of_ne_nil hne)] at hblank
  cases hblank

theorem trim_gap {gap : Text} (h : IsGap gap) : trim gap = [] := by
  rw [trim, (trimStart_eq_nil_iff gap).mpr h]
  rfl

theorem trim_gap_append {gap t : Text} (hgap : IsGap gap) (hhead : ∀ c ∈ t.head?, isBlank c = false)
    (hlast : ∀ c ∈ t.getLast?, isBlank c = false) : trim (gap ++ t) = t := by
  simpa using trim_gap_append_gap hgap isGap_nil hhead hlast

/-! ## Printed characters -/

/-- The marks and letters that schedules are printed with, between commas. -/
def symbols : List Char := " -\x7b\x7dcdehikmnorstwy".toList

/-- A digit, or one of the marks and letters that schedules are printed with. -/
def IsSymbol (c : Char) : Prop := c.isDigit = true ∨ c ∈ symbols

/-- All characters of the text are symbols. -/
def OfSymbols (t : Text) : Prop := ∀ c ∈ t, IsSymbol c

instance (t : Text) : Decidable (OfSymbols t) :=
  decidable_of_iff ((t.all fun c => c.isDigit || symbols.contains c) = true)
    (by simp [OfSymbols, IsSymbol])

theorem ofSymbols_append {s t : Text} : OfSymbols (s ++ t) ↔ OfSymbols s ∧ OfSymbols t :=
  List.forall_mem_append

theorem ofSymbols_intercalate (hsep : OfSymbols sep) (h : ∀ part ∈ parts, OfSymbols part) :
    OfSymbols (sep.intercalate parts) := by
  intro c hc
  rcases mem_intercalate hc with hc | ⟨part, hpart, hc⟩
  · exact hsep c hc
  · exact h part hpart c hc

theorem IsSymbol.ne_comma {c : Char} (h : IsSymbol c) : c ≠ ',' := by
  rintro rfl
  rcases h with h | h <;> revert h <;> decide

/-- Symbols are their own lowercase forms. -/
theorem IsSymbol.isLowercase {c : Char} (h : IsSymbol c) : IsLowercase c := by
  rcases h with h | h
  · have hrange := (isDigit_iff_toNat c).mp h
    have hall : ∀ n < 58, IsLowercase (Char.ofNat n) := by decide
    have hdigit := hall c.toNat (by omega)
    rwa [Char.ofNat_toNat] at hdigit
  · have hall : (symbols.all fun c => IsLowercase c) = true := by decide
    simpa using List.all_eq_true.mp hall c h

/-- The text is a piece of a printed schedule: it has symbols only, does not start with a
blank and ends with a closing brace. -/
structure IsPrinted (t : Text) : Prop where
  symbols : OfSymbols t
  start : ∀ c ∈ t.head?, isBlank c = false
  stop : t.getLast? = some '\x7d'

variable {t : Text}

theorem IsPrinted.ne_nil (h : IsPrinted t) : t ≠ [] := by
  rintro rfl
  cases h.stop

theorem IsPrinted.lowercase_eq (h : IsPrinted t) : lowercase t = t :=
  lowercaseAfter_eq_self (fun c hc => (h.symbols c hc).isLowercase) false

theorem IsPrinted.trim_gap_append (h : IsPrinted t) {gap : Text} (hgap : IsGap gap) :
    trim (gap ++ t) = t := by
  apply Text.trim_gap_append hgap h.start
  intro c hc
  obtain rfl : '\x7d' = c := by simpa [h.stop] using hc
  decide

/-! ## Printed pieces between commas -/

/-- Pieces between commas are found again, each but the first with a blank in front. -/
theorem splitOn_intercalate {rest : List Text} (h : IsPrinted t)
    (hrest : ∀ piece ∈ rest, IsPrinted piece) :
    (", ".toList.intercalate (t :: rest)).splitOn ',' = t :: rest.map fun u => [' '] ++ u := by
  have hcomma : ∀ {u : Text}, IsPrinted u → ',' ∉ u := fun hu hc =>
    (hu.symbols ',' hc).ne_comma rfl
  have hsep : ", ".toList.intercalate (t :: rest) =
      [','].intercalate (t :: rest.map fun u => [' '] ++ u) := intercalate_cons_sep ',' [' '] t rest
  rw [hsep]
  apply List.splitOn_intercalate
  · intro piece hpiece
    rcases List.mem_cons.mp hpiece with rfl | hpiece
    · exact hcomma h
    · obtain ⟨u, hu, rfl⟩ := List.mem_map.mp hpiece
      simpa using hcomma (hrest u hu)
  · exact List.cons_ne_nil _ _

/-- A printed schedule neither starts with a blank nor ends with a blank or a comma, and it
has nothing in uppercase. -/
theorem intercalate_isPrinted {pieces : List Text} (h : ∀ piece ∈ pieces, IsPrinted piece)
    (hne : pieces ≠ []) :
    (∀ c ∈ (", ".toList.intercalate pieces).head?, isBlank c = false) ∧
      (", ".toList.intercalate pieces).getLast? = some '\x7d' ∧
        lowercase (", ".toList.intercalate pieces) = ", ".toList.intercalate pieces := by
  refine ⟨?_, getLast?_intercalate hne fun piece hpiece => (h piece hpiece).stop, ?_⟩
  · obtain ⟨piece, rest, rfl⟩ := List.exists_cons_of_ne_nil hne
    have hpiece := h piece List.mem_cons_self
    rw [head?_intercalate hpiece.ne_nil]
    exact hpiece.start
  · apply lowercaseAfter_eq_self
    intro c hc
    rcases mem_intercalate hc with hc | ⟨piece, hpiece, hc⟩
    · have hsep : (", ".toList.all fun c => IsLowercase c) = true := by decide
      simpa using List.all_eq_true.mp hsep c hc
    · exact ((h piece hpiece).symbols c hc).isLowercase

end Timetable.Text
