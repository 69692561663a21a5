import Timetable.Proofs.Text.Printed

/-!
# Lowercasing between dividers

Whether a capital sigma is a final one depends on the characters around it, but
not on what lies beyond a divider, a character that is neither cased nor
case-ignorable. The punctuation of expressions and the blanks are such characters,
and lowercasing neither adds nor removes any of them. So a text may be cut at
commas and trimmed before or after it is lowercased, and in lowercase once is in
lowercase for good.
-/

namespace Timetable.Text

/-- The character keeps its form, and the letters on its two sides do not count as one word. -/
structure IsDivider (c : Char) : Prop where
  isLowercase : IsLowercase c
  isCaseIgnorable_eq : isCaseIgnorable c = false
  isCased_eq : isCased c = false

instance (c : Char) : Decidable (IsDivider c) :=
  decidable_of_iff (IsLowercase c ∧ isCaseIgnorable c = false ∧ isCased c = false)
    ⟨fun h => ⟨h.1, h.2.1, h.2.2⟩, fun h => ⟨h.1, h.2, h.3⟩⟩

/-- The character is punctuation of an expression or a blank. -/
def IsSeparator (c : Char) : Prop := c ∈ [',', '-', '!', '\x7b', '\x7d'] ∨ isBlank c = true

instance (c : Char) : Decidable (IsSeparator c) :=
  inferInstanceAs (Decidable (c ∈ [',', '-', '!', '\x7b', '\x7d'] ∨ isBlank c = true))

/-- The code points of the separators. -/
def dividingCodes : List Nat :=
  [0x2C, 0x2D, 0x21, 0x7B, 0x7D] ++ List.range' 0x9 5 ++ [0x20, 0x85, 0xA0, 0x1680] ++
    List.range' 0x2000 11 ++ [0x2028, 0x2029, 0x202F, 0x205F, 0x3000]

theorem mem_dividingCodes_iff (c : Char) : c.toNat ∈ dividingCodes ↔ IsSeparator c := by
  have hcode : ∀ d : Char, c = d ↔ c.toNat = d.toNat := fun d =>
    ⟨fun h => h ▸ rfl, fun h => Char.toNat_inj.mp h⟩
  simp only [IsSeparator, hcode, dividingCodes, isBlank, List.mem_append, List.mem_cons,
    List.not_mem_nil, List.mem_range'_1, or_false, Bool.or_eq_true, Bool.and_eq_true,
    decide_eq_true_eq, beq_iff_eq, Char.reduceToNat]
  omega

theorem IsSeparator.isDivider {c : Char} (h : IsSeparator c) : IsDivider c := by
  have hall : ∀ n ∈ dividingCodes, IsDivider (Char.ofNat n) := by decide +kernel
  simpa using hall c.toNat ((mem_dividingCodes_iff c).mpr h)

theorem isSeparator_of_blank {c : Char} (h : isBlank c = true) : IsSeparator c := Or.inr h

/-! ## Characters -/

/-- The letters of the table have no separators among their forms. -/
theorem letterRuns_avoid_dividingCodes :
    (letterRuns.all fun run => dividingCodes.all fun n =>
      n < run.target || run.form run.last < n) = true := by
  decide +kernel

/-- No other character becomes a separator in lowercase. -/
theorem eq_of_mem_lowercaseForm {c d : Char} (h : d ∈ lowercaseForm c)
    (hd : IsSeparator d) : d = c := by
  have hcode := (mem_dividingCodes_iff d).mpr hd
  unfold lowercaseForm at h
  split at h
  · next hascii =>
      obtain rfl : d = c.toLower := List.mem_singleton.mp h
      have hall : ∀ n < 0x80, (Char.ofNat n).toLower.toNat ∈ dividingCodes →
          (Char.ofNat n).toLower = Char.ofNat n := by decide
      simpa using hall c.toNat hascii (by simpa using hcode)
  · split at h
    · have hboth : (['i', '\u0307'].all fun d => decide (d.toNat ∉ dividingCodes)) = true := by
        decide
      have hnot := List.all_eq_true.mp hboth d h
      exact absurd hcode (of_decide_eq_true hnot)
    · split at h
      · next run hfind =>
          obtain rfl := List.mem_singleton.mp h
          have hrun := List.mem_of_find?_eq_some hfind
          have hlists : run.lists c.toNat = true := by simpa using List.find?_some hfind
          rw [toNat_ofNat_form hrun hlists] at hcode
          have hall := List.all_eq_true.mp letterRuns_avoid_dividingCodes run hrun
          have hapart := List.all_eq_true.mp hall _ hcode
          have hrange := LetterRun.form_mem_range hlists
          simp only [Bool.or_eq_true, decide_eq_true_eq] at hapart
          omega
      · exact List.mem_singleton.mp h

/-! ## Texts -/

/-- What a text goes on with behind a divider has no bearing on whether it leads to a cased
character. -/
theorem leadsToCased_append_divider {d : Char} (hd : IsDivider d) (s t : Text) :
    leadsToCased (s ++ d :: t) = leadsToCased s := by
  unfold leadsToCased
  induction s with
  | nil => simp [hd.isCaseIgnorable_eq, hd.isCased_eq]
  | cons c s ih =>
      by_cases hc : isCaseIgnorable c = true
      · simpa [hc] using ih
      · simp [hc]

/-- A text is lowercased on the two sides of a divider, each by itself. -/
theorem lowercaseAfter_append_divider {d : Char} (hd : IsDivider d) (afterCased : Bool)
    (s t : Text) :
    lowercaseAfter afterCased (s ++ d :: t) = lowercaseAfter afterCased s ++ d :: lowercase t := by
  induction s generalizing afterCased with
  | nil =>
      have hsigma : d ≠ 'Σ' := by
        rintro rfl
        exact absurd hd (by decide +kernel)
      have hform : lowercaseForm d = [d] := hd.isLowercase
      simp only [List.nil_append, lowercaseAfter, if_neg hsigma, hform, hd.isCaseIgnorable_eq,
        hd.isCased_eq, List.singleton_append]
      rfl
  | cons c s ih =>
      simp only [List.cons_append, lowercaseAfter, lowercaseSigma,
        leadsToCased_append_divider hd, ih, List.append_assoc]

theorem lowercase_append_divider {d : Char} (hd : IsDivider d) (s t : Text) :
    lowercase (s ++ d :: t) = lowercase s ++ d :: lowercase t :=
  lowercaseAfter_append_divider hd false s t

theorem lowercase_append_separator {d : Char} (hd : IsSeparator d) (s t : Text) :
    lowercase (s ++ d :: t) = lowercase s ++ d :: lowercase t :=
  lowercase_append_divider hd.isDivider s t

theorem lowercase_separator_cons {d : Char} (hd : IsSeparator d) (t : Text) :
    lowercase (d :: t) = d :: lowercase t := lowercase_append_separator hd [] t

theorem lowercase_gap_append {gap : Text} (hgap : IsGap gap) (t : Text) :
    lowercase (gap ++ t) = gap ++ lowercase t := by
  induction gap with
  | nil => rfl
  | cons c rest ih =>
      obtain ⟨hc, hrest⟩ := isGap_cons.mp hgap
      calc
        lowercase (c :: (rest ++ t)) = c :: lowercase (rest ++ t) :=
          lowercase_separator_cons (isSeparator_of_blank hc) _
        _ = c :: (rest ++ lowercase t) := by rw [ih hrest]

theorem lowercase_gap {gap : Text} (hgap : IsGap gap) : lowercase gap = gap := by
  simpa [lowercase, lowercaseAfter] using lowercase_gap_append hgap []

theorem lowercase_append_gap {gap : Text} (hgap : IsGap gap) (t : Text) :
    lowercase (t ++ gap) = lowercase t ++ gap := by
  cases gap with
  | nil => simp
  | cons c rest =>
      obtain ⟨hc, hrest⟩ := isGap_cons.mp hgap
      rw [lowercase_append_separator (isSeparator_of_blank hc), lowercase_gap hrest]

/-- Texts joined by commas are lowercased one by one. -/
theorem lowercase_intercalate_comma (texts : List Text) :
    lowercase ([','].intercalate texts) = [','].intercalate (texts.map lowercase) := by
  induction texts with
  | nil => rfl
  | cons t rest ih =>
      cases rest with
      | nil => simp
      | cons next rest =>
          simp only [List.map_cons, List.intercalate_cons_cons, List.append_assoc,
            List.singleton_append] at ih ⊢
          rw [lowercase_append_separator (by decide), ih]

/-! ## Ends of texts -/

/-- The characters that stand in lowercase for the first one of a text. -/
def firstForm (afterCased : Bool) (c : Char) (rest : Text) : Text :=
  if c = 'Σ' then [lowercaseSigma afterCased rest] else lowercaseForm c

theorem lowercaseAfter_cons (afterCased : Bool) (c : Char) (rest : Text) :
    lowercaseAfter afterCased (c :: rest) = firstForm afterCased c rest ++
      lowercaseAfter (if isCaseIgnorable c then afterCased else isCased c) rest := rfl

theorem eq_of_mem_firstForm {afterCased : Bool} {c d : Char} {rest : Text}
    (h : d ∈ firstForm afterCased c rest) (hd : IsSeparator d) : d = c := by
  unfold firstForm at h
  split at h
  · -- Neither form of a sigma is a separator.
    have hforms : (['σ', 'ς'].all fun e => decide (e.toNat ∉ dividingCodes)) = true := by decide
    have hmem : d ∈ ['σ', 'ς'] := by
      rw [List.mem_singleton.mp h, lowercaseSigma]
      split <;> simp
    exact absurd ((mem_dividingCodes_iff d).mpr hd)
      (of_decide_eq_true (List.all_eq_true.mp hforms d hmem))
  · exact eq_of_mem_lowercaseForm h hd

theorem firstForm_ne_nil (afterCased : Bool) (c : Char) (rest : Text) :
    firstForm afterCased c rest ≠ [] := by
  unfold firstForm lowercaseForm
  split
  · exact List.cons_ne_nil _ _
  · repeat' split
    all_goals exact List.cons_ne_nil _ _

theorem lowercase_ne_nil {t : Text} (h : t ≠ []) : lowercase t ≠ [] := by
  obtain ⟨c, rest, rfl⟩ := List.exists_cons_of_ne_nil h
  exact List.append_ne_nil_of_left_ne_nil (firstForm_ne_nil false c rest) _

/-- Separators of a lowercase text stand in the text itself. -/
theorem mem_of_mem_lowercaseAfter {t : Text} {afterCased : Bool} {d : Char}
    (h : d ∈ lowercaseAfter afterCased t) (hd : IsSeparator d) : d ∈ t := by
  induction t generalizing afterCased with
  | nil => exact h
  | cons c rest ih =>
      rw [lowercaseAfter_cons, List.mem_append] at h
      rcases h with h | h
      · exact List.mem_cons.mpr (Or.inl (eq_of_mem_firstForm h hd))
      · exact List.mem_cons_of_mem c (ih h)

/-- The separators of a text are those of its lowercase form. -/
theorem mem_lowercase_iff {t : Text} {d : Char} (hd : IsSeparator d) :
    d ∈ lowercase t ↔ d ∈ t := by
  constructor
  · exact fun h => mem_of_mem_lowercaseAfter h hd
  · intro h
    obtain ⟨s, u, rfl⟩ := List.append_of_mem h
    rw [lowercase_append_separator hd]
    simp

/-- A text is split at commas before or after it is lowercased. -/
theorem splitOn_comma_lowercase (t : Text) :
    (lowercase t).splitOn ',' = (t.splitOn ',').map lowercase := by
  have hne := List.splitOn_ne_nil ',' t
  have hcomma : ∀ piece ∈ (t.splitOn ',').map lowercase, ',' ∉ piece := by
    intro piece hpiece
    obtain ⟨piece, hmem, rfl⟩ := List.mem_map.mp hpiece
    rw [mem_lowercase_iff (by decide)]
    exact notMem_of_mem_splitOn hmem
  calc
    (lowercase t).splitOn ',' = (lowercase ([','].intercalate (t.splitOn ','))).splitOn ',' := by
      rw [List.intercalate_splitOn]
    _ = ([','].intercalate ((t.splitOn ',').map lowercase)).splitOn ',' := by
      rw [lowercase_intercalate_comma]
    _ = (t.splitOn ',').map lowercase :=
      List.splitOn_intercalate ',' hcomma (List.map_eq_nil_iff.not.mpr hne)

/-- A lowercase text starts with a blank only if the text does. -/
theorem head?_lowercase {t : Text} (h : ∀ c ∈ t.head?, isBlank c = false) :
    ∀ d ∈ (lowercase t).head?, isBlank d = false := by
  intro d hd
  cases t with
  | nil => cases hd
  | cons c rest =>
      have hne := firstForm_ne_nil false c rest
      rw [lowercase, lowercaseAfter_cons, List.head?_append_of_ne_nil _ hne] at hd
      apply Bool.eq_false_iff.mpr
      intro hblank
      obtain rfl := eq_of_mem_firstForm (List.mem_of_mem_head? hd) (isSeparator_of_blank hblank)
      rw [h d rfl] at hblank
      cases hblank

/-- A lowercase text ends with a blank only if the text does. -/
theorem getLast?_lowercaseAfter {t : Text} (afterCased : Bool)
    (h : ∀ c ∈ t.getLast?, isBlank c = false) :
    ∀ d ∈ (lowercaseAfter afterCased t).getLast?, isBlank d = false := by
  intro d hd
  induction t generalizing afterCased with
  | nil => cases hd
  | cons c rest ih =>
      rw [lowercaseAfter_cons] at hd
      cases rest with
      | nil =>
          rw [lowercaseAfter, List.append_nil] at hd
          apply Bool.eq_false_iff.mpr
          intro hblank
          obtain rfl := eq_of_mem_firstForm (List.mem_of_getLast? hd) (isSeparator_of_blank hblank)
          rw [h d rfl] at hblank
          cases hblank
      | cons next rest =>
          have hne : ∀ b, lowercaseAfter b (next :: rest) ≠ [] := fun b =>
            List.append_ne_nil_of_left_ne_nil (firstForm_ne_nil b next rest) _
          rw [List.getLast?_append_of_ne_nil _ (hne _)] at hd
          exact ih _ (by simpa using h) hd

/-! ## Trimmed texts -/

theorem trim_lowercase (t : Text) : trim (lowercase t) = lowercase (trim t) := by
  obtain ⟨before, after, hbefore, hafter, ht⟩ := exists_gap_trim t
  conv_lhs => rw [ht, lowercase_gap_append hbefore, lowercase_append_gap hafter]
  exact trim_gap_append_gap hbefore hafter (head?_lowercase (head?_trim t))
    (getLast?_lowercaseAfter false (getLast?_trim t))

/-- Trimming a text in lowercase again leaves the trimmed text in lowercase. -/
theorem lowercase_trim_lowercase (t : Text) :
    lowercase (trim (lowercase t)) = lowercase (trim t) := by
  rw [trim_lowercase]
  exact lowercase_eq_self fun c hc => hc

/-! ## Texts of a lowercase form -/

theorem eq_nil_of_lowercase {t : Text} (h : lowercase t = []) : t = [] := by
  by_contra hne
  exact lowercase_ne_nil hne h

/-- A separator of the lowercase form stands in the text as well, between texts whose forms
are the two sides. The induction is on the left side, which the first such separator of
the text cuts short. -/
theorem exists_append_of_lowercase {d : Char} (hd : IsSeparator d) {t left right : Text}
    (h : lowercase t = left ++ d :: right) :
    ∃ s u, t = s ++ d :: u ∧ lowercase s = left ∧ lowercase u = right := by
  have hmem : d ∈ lowercase t := by simp [h]
  obtain ⟨s, u, rfl, hs⟩ := List.eq_append_cons_of_mem (mem_of_mem_lowercaseAfter hmem hd)
  have hfirst : d ∉ lowercase s := fun hmem => hs (mem_of_mem_lowercaseAfter hmem hd)
  rw [lowercase_append_separator hd] at h
  rcases List.append_eq_append_iff.mp h with ⟨more, hleft, hright⟩ | ⟨more, hleft, hright⟩
  · cases more with
    | nil =>
        obtain ⟨-, hu⟩ := List.cons.inj hright
        exact ⟨s, u, rfl, by simpa using hleft.symm, hu⟩
    | cons c more =>
        obtain ⟨rfl, hu⟩ := List.cons.inj hright
        have hshort : more.length < left.length := by
          rw [hleft, List.length_append, List.length_cons]
          omega
        obtain ⟨middle, rest, rfl, hmiddle, hrest⟩ := exists_append_of_lowercase hd hu
        refine ⟨s ++ d :: middle, rest, by simp, ?_, hrest⟩
        rw [lowercase_append_separator hd, hmiddle, hleft]
  · cases more with
    | nil =>
        obtain ⟨-, hu⟩ := List.cons.inj hright
        exact ⟨s, u, rfl, by simpa using hleft, hu.symm⟩
    | cons c more =>
        obtain ⟨rfl, -⟩ := List.cons.inj hright
        exact absurd (hleft ▸ List.mem_append_right left List.mem_cons_self) hfirst
termination_by left.length

/-- A gap in front of the lowercase form is a gap in front of the text. -/
theorem exists_gap_append_of_lowercase {gap t rest : Text} (hgap : IsGap gap)
    (h : lowercase t = gap ++ rest) : ∃ u, t = gap ++ u ∧ lowercase u = rest := by
  induction gap generalizing t with
  | nil => exact ⟨t, rfl, h⟩
  | cons c gap ih =>
      obtain ⟨hc, hgap⟩ := isGap_cons.mp hgap
      obtain ⟨s, u, rfl, hs, hu⟩ := exists_append_of_lowercase (isSeparator_of_blank hc)
        (show lowercase t = [] ++ c :: (gap ++ rest) from h)
      obtain rfl := eq_nil_of_lowercase hs
      obtain ⟨v, rfl, hv⟩ := ih hgap hu
      exact ⟨v, rfl, hv⟩

theorem isGap_of_lowercase {t : Text} (h : IsGap (lowercase t)) : IsGap t := by
  obtain ⟨u, ht, hu⟩ := exists_gap_append_of_lowercase h (List.append_nil _).symm
  obtain rfl := eq_nil_of_lowercase hu
  rw [ht, List.append_nil]
  exact h

end Timetable.Text
