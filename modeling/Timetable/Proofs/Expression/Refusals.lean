import Timetable.Proofs.Expression.Grammar

/-!
# How values and bodies are refused

A text that is no value of its scale is refused by an error that its form alone
decides. A body is refused like the first of these texts in the order of its
tokens, the lower end of an interval before the upper one. Legal values are
refused only together, as years that cover the end of their domain.
-/

namespace Timetable.Expression

variable {scale : Scale} {e : Error}

/-- Digits, with a qualifier of hours behind them or with nothing. -/
inductive HourForm : Text → Prop
  | intro {digits qualifier} (hdigits : Text.isNumeral digits = true)
      (hqualifier : qualifier ∈ [[], "am".toList, "pm".toList, "noon".toList]) :
      HourForm (digits ++ qualifier)

/-- The text is no value of the scale, and the error says so. Only hours tell a number
that is out of range from a text of another form. -/
inductive Refused : Scale → Text → Error → Prop
  | hourForm {t} (hform : ¬HourForm t) : Refused .hour t (.hourForm t)
  | hourNumber {t} (hform : HourForm t) (hillegal : ¬Legal .hour t) :
      Refused .hour t (.hourNumber t)
  | unknownName {scale names t} (hnames : scale.valueNames? = some names)
      (hname : Text.isNumeral t = false) (hillegal : ¬Legal scale t) :
      Refused scale t (.unknownName scale t)
  | invalidValue {scale t} (hscale : scale ≠ .hour)
      (hnumber : scale.valueNames? = none ∨ Text.isNumeral t = true)
      (hillegal : ¬Legal scale t) : Refused scale t (.invalidValue scale t)

/-- The first of the texts that is no value of the scale is refused by the error. -/
inductive FirstRefused (scale : Scale) (e : Error) : List Text → Prop
  | head {t rest} (h : Refused scale t e) : FirstRefused scale e (t :: rest)
  | tail {t rest} (hlegal : Legal scale t) (h : FirstRefused scale e rest) :
      FirstRefused scale e (t :: rest)

/-- The ends of an item, the lower one first. -/
def Item.ends {α : Type} : Item α → List α
  | single t => [t]
  | interval s t => [s, t]

namespace Group

/-- The texts that stand where the body of the group has to list values. -/
def values (group : Group) : List Text := group.listing.items.flatMap Item.ends

/-- The error is about the first illegal value of the group, or about years that cover the
end of the domain although each is legal. -/
inductive Refused (group : Group) : Error → Prop
  | value {error} (h : FirstRefused group.scale error group.values) : Refused group error
  | years (hyear : group.scale = .year) (hlegal : ∀ t ∈ group.values, Legal .year t)
      (hcovers : group.listing.Covers 9999) :
      Refused group (.unboundedYears group.body)

end Group

/-! ## Values -/

theorem mem_qualifiers_iff (t : Text) :
    t ∈ [[], "am".toList, "pm".toList, "noon".toList] ↔
      ∃ qualifier, t = Qualifier.text qualifier := by
  simp only [List.mem_cons, List.not_mem_nil, or_false]
  constructor
  · rintro (rfl | rfl | rfl | rfl)
    · exact ⟨.bare, rfl⟩
    · exact ⟨.am, rfl⟩
    · exact ⟨.pm, rfl⟩
    · exact ⟨.noon, rfl⟩
  · rintro ⟨qualifier, rfl⟩
    cases qualifier <;> simp [Qualifier.text]

/-- The form of an hour shows in what precedes its first letter and in what is left. -/
theorem hourForm_iff (t : Text) :
    HourForm t ↔ t.takeWhile Char.isDigit ≠ [] ∧
      ∃ qualifier, Qualifier.ofText? (t.dropWhile Char.isDigit) = some qualifier := by
  simp only [Qualifier.ofText?_eq_some_iff]
  constructor
  · rintro ⟨hdigits, hqualifier⟩
    obtain ⟨qualifier, rfl⟩ := (mem_qualifiers_iff _).mp hqualifier
    rw [takeWhile_isDigit_append_text hdigits, dropWhile_isDigit_append_text hdigits]
    exact ⟨((isNumeral_iff _).mp hdigits).1, qualifier, rfl⟩
  · rintro ⟨hne, qualifier, hqualifier⟩
    have hdigits : Text.isNumeral (t.takeWhile Char.isDigit) = true :=
      (isNumeral_iff _).mpr ⟨hne, fun c hc => List.mem_takeWhile_imp hc⟩
    rw [← List.takeWhile_append_dropWhile (p := Char.isDigit) (l := t)]
    exact HourForm.intro hdigits ((mem_qualifiers_iff _).mpr ⟨qualifier, hqualifier⟩)

theorem not_legal_of_readValue {t : Text} (h : readValue scale t = .error e) :
    ¬Legal scale t := by
  intro hlegal
  obtain ⟨n, hn⟩ := hlegal.exists_denotes
  rw [(readValue_eq_ok_iff scale t n).mpr hn] at h
  cases h

theorem eq_of_readNumeral {t : Text} (h : readNumeral scale t = .error e) :
    e = .invalidValue scale t := by
  unfold readNumeral at h
  split at h
  · cases h
  · exact (Except.error.inj h).symm

theorem refused_of_readHour {t : Text} (h : readHour t = .error e) : Refused .hour t e := by
  have hillegal : ¬Legal .hour t := not_legal_of_readValue h
  simp only [readHour] at h
  split at h
  · next hnone =>
      obtain rfl := Except.error.inj h
      apply Refused.hourForm
      intro hform
      obtain ⟨-, qualifier, hqualifier⟩ := (hourForm_iff t).mp hform
      rw [hnone] at hqualifier
      cases hqualifier
  · next qualifier hqualifier =>
      split at h
      · next hnil =>
          obtain rfl := Except.error.inj h
          exact Refused.hourForm fun hform => ((hourForm_iff t).mp hform).1 hnil
      · next hne =>
          split at h
          · cases h
          · obtain rfl := Except.error.inj h
            exact Refused.hourNumber ((hourForm_iff t).mpr ⟨hne, qualifier, hqualifier⟩) hillegal

theorem refused_of_readValue {t : Text} (h : readValue scale t = .error e) :
    Refused scale t e := by
  have hillegal := not_legal_of_readValue h
  unfold readValue at h
  split at h
  · next hscale =>
      subst hscale
      exact refused_of_readHour h
  · next hscale =>
      split at h
      · next names hnames =>
          unfold readNamed at h
          split at h
          · next hdigits =>
              obtain rfl := eq_of_readNumeral h
              exact Refused.invalidValue hscale (Or.inr hdigits) hillegal
          · next hletters =>
              split at h
              · cases h
              · obtain rfl := Except.error.inj h
                exact Refused.unknownName hnames (Bool.eq_false_iff.mpr hletters) hillegal
      · next hnames =>
          obtain rfl := eq_of_readNumeral h
          exact Refused.invalidValue hscale (Or.inl hnames) hillegal

theorem Refused.not_legal {t : Text} (h : Refused scale t e) : ¬Legal scale t := by
  cases h with
  | hourForm hform =>
      intro hlegal
      apply hform
      cases hlegal with
      | number hscale => exact absurd rfl hscale
      | name hnames => cases hnames
      | hour hdigits =>
          rw [← List.append_nil t]
          exact HourForm.intro hdigits List.mem_cons_self
      | qualified hqualifier hdigits =>
          exact HourForm.intro hdigits (List.mem_cons_of_mem _ hqualifier)
  | hourNumber _ hillegal => exact hillegal
  | unknownName _ _ hillegal => exact hillegal
  | invalidValue _ _ hillegal => exact hillegal

/-- The form of a text decides by which error it is refused. -/
theorem Refused.unique {t : Text} {e' : Error} (h : Refused scale t e)
    (h' : Refused scale t e') : e = e' := by
  cases h with
  | hourForm hform =>
      cases h' with
      | hourForm => rfl
      | hourNumber hform' => exact absurd hform' hform
      | unknownName hnames => cases hnames
      | invalidValue hscale => exact absurd rfl hscale
  | hourNumber hform =>
      cases h' with
      | hourForm hform' => exact absurd hform hform'
      | hourNumber => rfl
      | unknownName hnames => cases hnames
      | invalidValue hscale => exact absurd rfl hscale
  | unknownName hnames hname =>
      cases h' with
      | hourForm => cases hnames
      | hourNumber => cases hnames
      | unknownName => rfl
      | invalidValue _ hnumber => simp [hnames, hname] at hnumber
  | invalidValue hscale hnumber =>
      cases h' with
      | hourForm => exact absurd rfl hscale
      | hourNumber => exact absurd rfl hscale
      | unknownName hnames hname => simp [hnames, hname] at hnumber
      | invalidValue => rfl

theorem Refused.ne_malformed {t : Text} (h : Refused scale t e) (position : Nat) (rest : Text) :
    e ≠ .malformed position rest := by
  cases h <;> exact nofun

/-- A value fails to be read exactly by the error that refuses it. -/
theorem readValue_eq_error_iff (scale : Scale) (t : Text) (e : Error) :
    readValue scale t = .error e ↔ Refused scale t e := by
  constructor
  · exact refused_of_readValue
  · intro h
    cases hread : readValue scale t with
    | ok n => exact absurd ((readValue_eq_ok_iff scale t n).mp hread).legal h.not_legal
    | error e' => rw [h.unique (refused_of_readValue hread)]

/-! ## Bodies -/

theorem FirstRefused.exists_refused {values : List Text} (h : FirstRefused scale e values) :
    ∃ t, Refused scale t e := by
  induction h with
  | head h => exact ⟨_, h⟩
  | tail _ _ ih => exact ih

theorem FirstRefused.append {values : List Text} (h : FirstRefused scale e values)
    (after : List Text) : FirstRefused scale e (values ++ after) := by
  induction h with
  | head h => exact FirstRefused.head h
  | tail hlegal _ ih => exact FirstRefused.tail hlegal ih

theorem FirstRefused.append_left {before values : List Text}
    (hbefore : ∀ t ∈ before, Legal scale t) (h : FirstRefused scale e values) :
    FirstRefused scale e (before ++ values) := by
  induction before with
  | nil => exact h
  | cons t before ih =>
      obtain ⟨ht, hbefore⟩ := List.forall_mem_cons.mp hbefore
      exact FirstRefused.tail ht (ih hbefore)

namespace Item

theorem legal_iff_forall_ends (item : Item Text) :
    item.Legal scale ↔ ∀ t ∈ item.ends, Expression.Legal scale t := by
  cases item <;> simp [Legal, ends]

theorem legal_of_read {item : Item Text} {values : Item Nat}
    (h : (item.read scale).outcome = .ok values) : ∀ t ∈ item.ends, Expression.Legal scale t :=
  (legal_iff_forall_ends item).mp
    ((legal_iff_exists_denotes item).mpr ⟨values, (read_eq_ok_iff item values).mp h⟩)

/-- The lower end of an item is refused before the upper one. -/
theorem firstRefused_of_read {item : Item Text} (h : (item.read scale).outcome = .error e) :
    FirstRefused scale e item.ends := by
  cases item with
  | single t =>
      simp only [read, Logged.outcome_bind_eq_error_iff, Logged.outcome_silent] at h
      rcases h with h | ⟨n, -, h⟩
      · exact FirstRefused.head (refused_of_readValue h)
      · cases h
  | interval s t =>
      simp only [read, Logged.outcome_bind_eq_error_iff, Logged.outcome_silent] at h
      rcases h with h | ⟨m, hm, h | ⟨n, -, h⟩⟩
      · exact FirstRefused.head (refused_of_readValue h)
      · have hlegal := ((readValue_eq_ok_iff scale s m).mp hm).legal
        exact FirstRefused.tail hlegal (FirstRefused.head (refused_of_readValue h))
      · -- The reports of the interval never fail.
        rcases h with h | ⟨-, -, h⟩
        · cases h
        · split at h <;> cases h

end Item

namespace Group

variable {group : Group}

theorem Refused.ne_malformed (h : group.Refused e) (position : Nat) (rest : Text) :
    e ≠ .malformed position rest := by
  cases h with
  | value h =>
      obtain ⟨t, ht⟩ := h.exists_refused
      exact ht.ne_malformed position rest
  | years => exact nofun

/-- The items of a group are refused like the first of their ends that is. -/
theorem firstRefused_of_traverse
    (h : (Logged.traverse (fun token => (Item.ofToken token).read group.scale)
      (tokens group.body)).outcome = .error e) :
    FirstRefused group.scale e group.values := by
  obtain ⟨before, token, after, hsplit, hbefore, htoken⟩ :=
    (Logged.outcome_traverse_eq_error_iff _ _ e).mp h
  have hlegal : ∀ t ∈ (before.map Item.ofToken).flatMap Item.ends, Legal group.scale t := by
    intro t ht
    simp only [List.mem_flatMap, List.mem_map, exists_exists_and_eq_and] at ht
    obtain ⟨token, hmem, ht⟩ := ht
    obtain ⟨values, hread⟩ := hbefore token hmem
    exact Item.legal_of_read hread t ht
  rw [values, listing, hsplit, List.map_append, List.flatMap_append, List.map_cons,
    List.flatMap_cons]
  exact FirstRefused.append_left hlegal ((Item.firstRefused_of_read htoken).append _)

/-- The values of legal items are legal. -/
theorem forall_legal_of_denotes {values : List (Item Nat)}
    (h : List.Forall₂ (Item.Denotes group.scale) group.listing.items values) :
    ∀ t ∈ group.values, Legal group.scale t := by
  intro t ht
  obtain ⟨item, hitem, ht⟩ := List.mem_flatMap.mp ht
  obtain ⟨value, -, hvalue⟩ := Pointwise.exists_right h hitem
  have hlegal := (Item.legal_iff_exists_denotes item).mpr ⟨value, hvalue⟩
  exact (Item.legal_iff_forall_ends item).mp hlegal t ht

/-- Whatever a group is refused for is its first illegal value or the reach of its years. -/
theorem refused_of_readSpans (h : (readSpans group.scale group.body).outcome = .error e) :
    group.Refused e := by
  simp only [readSpans, Logged.outcome_bind_eq_error_iff, Logged.outcome_traverse_eq_ok_iff,
    Item.read_eq_ok_iff, Logged.outcome_report] at h
  rcases h with h | ⟨values, hvalues, h | ⟨-, -, h⟩⟩
  · exact Refused.value (firstRefused_of_traverse h)
  · cases h
  · split at h
    · next hyears =>
        obtain rfl := Except.error.inj h
        simp only [Bool.and_eq_true, decide_eq_true_eq, List.contains_iff_mem,
          Span.mem_distinctValues] at hyears
        obtain ⟨hyear, hcovers⟩ := hyears
        have hdenotes : List.Forall₂ (Item.Denotes group.scale) group.listing.items values :=
          List.forall₂_map_left_iff.mpr hvalues
        have hlast : group.scale.highest = 9999 := by rw [hyear, Scale.highest]
        rw [hlast] at hcovers
        exact Refused.years hyear (hyear ▸ forall_legal_of_denotes hdenotes)
          ((Item.exists_covers_iff_anyCovers hdenotes 9999).mpr hcovers)
    · cases h

end Group

end Timetable.Expression
