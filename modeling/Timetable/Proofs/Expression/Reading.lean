import Timetable.Proofs.Expression.Pieces
import Timetable.Proofs.Expression.Values
import Timetable.Proofs.Logged

/-!
# Reading written expressions

Reading a text that is written as phrases depends on the phrases alone: it
succeeds when every value stands for a number and no year reaches the end of the
domain, and it yields the periods of the spans that are gathered from the items
of each listing. Whatever is read at all is written as some phrases.
-/

namespace Timetable.Expression

variable {scale : Scale}

/-- The values that the ends of an item stand for. -/
inductive Item.Denotes (scale : Scale) : Item Text → Item Nat → Prop
  | single {t n} (h : Expression.Denotes scale t n) : Denotes scale (single t) (single n)
  | interval {s t m n} (hlow : Expression.Denotes scale s m)
      (hhigh : Expression.Denotes scale t n) :
      Denotes scale (interval s t) (interval m n)

/-- The spans that the items of a listing add up to. Years may not reach the end of
their domain. -/
inductive Gathered (scale : Scale) (items : List (Item Text)) : List Span → Prop
  | intro {values} (hvalues : List.Forall₂ (Item.Denotes scale) items values)
      (hyear : scale = .year →
        Span.anyCovers (values.flatMap (Item.spans scale)) scale.highest = false) :
      Gathered scale items (Span.ofAscending scale.boundary
        (Span.distinctValues (values.flatMap (Item.spans scale))))

/-- The constraint that a listing stands for. -/
def Listing.Yields (listing : Listing) (constraint : Scale × List Span) : Prop :=
  constraint.1 = listing.scale ∧ Gathered listing.scale listing.items constraint.2

/-- The period that a phrase stands for and whether it is negated. -/
inductive Phrase.Yields (phrase : Phrase) : Period × Bool → Prop
  | intro {constraints} (h : List.Forall₂ Listing.Yields phrase.listings constraints) :
      Yields phrase (Period.ofConstraints constraints, phrase.negative)

/-! ## Items -/

theorem Item.read_eq_ok_iff (item : Item Text) (values : Item Nat) :
    (item.read scale).outcome = .ok values ↔ item.Denotes scale values := by
  cases item with
  | single t =>
      simp only [Item.read, Logged.outcome_bind_eq_ok_iff, Logged.outcome_silent,
        Logged.outcome_pure, readValue_eq_ok_iff, Except.ok.injEq]
      constructor
      · rintro ⟨n, hn, rfl⟩
        exact Item.Denotes.single hn
      · rintro (hn | _)
        exact ⟨_, hn, rfl⟩
  | interval s t =>
      -- The report of wrapping around is one more step, and it never fails.
      have hreport : ∀ m n : Nat, (if n < m then do
            Logged.report (.wrapped scale m n)
            pure (interval m n)
          else pure (interval m n) : Logged Error (Item Nat)).outcome = .ok (interval m n) := by
        intro m n
        split <;> rfl
      simp only [Item.read, Logged.outcome_bind_eq_ok_iff, Logged.outcome_silent,
        Logged.outcome_report, readValue_eq_ok_iff, hreport, Except.ok.injEq]
      constructor
      · rintro ⟨m, hm, n, hn, -, -, rfl⟩
        exact Item.Denotes.interval hm hn
      · rintro (_ | ⟨hm, hn⟩)
        exact ⟨_, hm, _, hn, ⟨⟩, trivial, rfl⟩

theorem Item.Denotes.isPlain {item : Item Text} {values : Item Nat}
    (h : item.Denotes scale values) : item.IsPlain := by
  cases h with
  | single h => exact h.isPart
  | interval hlow hhigh => exact ⟨hlow.isPart, hhigh.isPart⟩

/-- The spans of a body are those that the items of its tokens add up to. -/
theorem readSpans_eq_ok_iff_gathered (body : Text) (spans : List Span) :
    (readSpans scale body).outcome = .ok spans ↔
      Gathered scale ((tokens body).map Item.ofToken) spans := by
  simp only [readSpans, Logged.outcome_bind_eq_ok_iff, Logged.outcome_traverse_eq_ok_iff,
    Item.read_eq_ok_iff, Logged.outcome_report]
  constructor
  · rintro ⟨values, hvalues, -, -, hspans⟩
    split at hspans
    · cases hspans
    · next hyear =>
        obtain rfl := Except.ok.inj hspans
        apply Gathered.intro (List.forall₂_map_left_iff.mpr hvalues)
        intro hscale
        simpa [hscale, Span.mem_distinctValues] using hyear
  · rintro ⟨hvalues, hyear⟩
    refine ⟨_, List.forall₂_map_left_iff.mp hvalues, ⟨⟩, trivial, ?_⟩
    rw [if_neg, Logged.outcome_pure]
    rintro h
    simp only [Bool.and_eq_true, decide_eq_true_eq, List.contains_iff_mem,
      Span.mem_distinctValues] at h
    rw [hyear h.1] at h
    exact Bool.false_ne_true h.2

/-- Written items are read for the spans that they add up to. -/
theorem readSpans_eq_ok_iff {items : List (Item Text)} {body : Text} {spans : List Span}
    (h : ItemsWritten items body) :
    (readSpans scale body).outcome = .ok spans ↔ Gathered scale items spans := by
  rw [readSpans_eq_ok_iff_gathered, h.map_ofToken_tokens]

/-- A body that is read lists the items of its tokens. -/
theorem itemsWritten_of_readSpans {body : Text} {spans : List Span}
    (h : (readSpans scale body).outcome = .ok spans) :
    ItemsWritten ((tokens body).map Item.ofToken) body := by
  obtain ⟨hvalues⟩ := (readSpans_eq_ok_iff_gathered body spans).mp h
  apply itemsWritten_tokens
  intro item hitem
  obtain ⟨values, -, hdenotes⟩ := Pointwise.exists_right hvalues hitem
  exact hdenotes.isPlain

/-! ## Clauses -/

/-- The scale of a group and the items of its tokens. -/
def Group.listing (group : Group) : Listing := ⟨group.scale, (tokens group.body).map Item.ofToken⟩

/-- Groups are read for the constraints of the listings that they match. -/
theorem readGroups_eq_ok_iff {listings : List Listing} {groups : List Group}
    (h : List.Forall₂ Listing.Matches listings groups) (constraints : List (Scale × List Span)) :
    (Logged.traverse
      (fun group : Group => do
        let spans ← readSpans group.scale group.body
        pure (group.scale, spans))
      groups).outcome = .ok constraints ↔
      List.Forall₂ Listing.Yields listings constraints := by
  rw [Logged.outcome_traverse_eq_ok_iff]
  induction h generalizing constraints with
  | nil => simp only [List.forall₂_nil_left_iff]
  | @cons listing group listings groups hmatch _ ih =>
      obtain ⟨hscale, hitems⟩ := hmatch
      have hgroup : ∀ constraint : Scale × List Span,
          (do
            let spans ← readSpans group.scale group.body
            pure (group.scale, spans) : Logged Error (Scale × List Span)).outcome =
              .ok constraint ↔ listing.Yields constraint := by
        intro constraint
        simp only [Logged.outcome_bind_eq_ok_iff, readSpans_eq_ok_iff hitems, Logged.outcome_pure]
        constructor
        · rintro ⟨spans, hspans, heq⟩
          obtain rfl := Except.ok.inj heq
          exact ⟨hscale, hscale ▸ hspans⟩
        · rintro ⟨hconstraint, hspans⟩
          exact ⟨constraint.2, hscale ▸ hspans, by rw [hscale, ← hconstraint]⟩
      simp only [List.forall₂_cons_left_iff, hgroup, ih]

theorem Phrase.Yields.negative_eq {phrase : Phrase} {result : Period × Bool}
    (h : phrase.Yields result) : result.2 = phrase.negative := by
  cases h
  rfl

/-- Reading a clause yields the period of the phrase that it is written as. -/
theorem readClause_eq_ok_iff {phrase : Phrase} {t : Text}
    (h : phrase.Written (Text.lowercase (Text.trim t))) (result : Period × Bool) :
    (readClause t).outcome = .ok result ↔ phrase.Yields result := by
  obtain ⟨hcomplete, hnegative, hmatch⟩ := (Phrase.written_iff phrase _).mp h
  simp only [readClause, Logged.outcome_bind_eq_ok_iff, readGroups_eq_ok_iff hmatch, hcomplete,
    if_true, Logged.outcome_pure, hnegative]
  constructor
  · rintro ⟨constraints, hconstraints, heq⟩
    obtain rfl := Except.ok.inj heq
    exact Phrase.Yields.intro hconstraints
  · rintro ⟨hconstraints⟩
    exact ⟨_, hconstraints, rfl⟩

/-- A clause that is read at all is written as a phrase. -/
theorem exists_written_of_readClause {t : Text} {result : Period × Bool}
    (h : (readClause t).outcome = .ok result) :
    ∃ phrase : Phrase, phrase.Written (Text.lowercase (Text.trim t)) := by
  simp only [readClause, Logged.outcome_bind_eq_ok_iff, Logged.outcome_traverse_eq_ok_iff] at h
  obtain ⟨constraints, hgroups, hresult⟩ := h
  split at hresult
  · next hcomplete =>
      let clause := Clause.ofText (Text.lowercase (Text.trim t))
      refine ⟨⟨clause.negative, clause.groups.map Group.listing⟩,
        (Phrase.written_iff _ _).mpr ⟨hcomplete, rfl, ?_⟩⟩
      apply List.forall₂_map_left_iff.mpr
      apply List.forall₂_same.mpr
      intro group hgroup
      obtain ⟨constraint, -, hread⟩ := Pointwise.exists_right hgroups hgroup
      obtain ⟨spans, hspans, -⟩ := hread
      exact ⟨rfl, itemsWritten_of_readSpans hspans⟩
  · cases hresult

/-! ## Expressions -/

/-- The results of phrases, parted into positive and negative periods. -/
def parted (results : List (Period × Bool)) : List Period × List Period :=
  ((results.filter (!·.2)).map (·.1), (results.filter (·.2)).map (·.1))

/-- Reading an expression yields the periods of the phrases that it is written as. -/
theorem read_eq_ok_iff {phrases : List Phrase} {t : Text} (h : Written phrases t)
    (periods : List Period × List Period) :
    (read t).outcome = .ok periods ↔
      ∃ results, List.Forall₂ Phrase.Yields phrases results ∧ periods = parted results := by
  have hclauses : ∀ results, List.Forall₂ (fun piece result =>
      (readClause piece).outcome = .ok result) (clauseTexts t) results ↔
      List.Forall₂ Phrase.Yields phrases results := by
    rw [written_iff] at h
    generalize clauseTexts t = pieces at h
    induction h with
    | nil =>
        intro results
        simp only [List.forall₂_nil_left_iff]
    | cons hphrase _ ih =>
        intro results
        simp only [List.forall₂_cons_left_iff, readClause_eq_ok_iff hphrase, ih]
  simp only [read, Logged.outcome_bind_eq_ok_iff, Logged.outcome_traverse_eq_ok_iff, hclauses,
    Logged.outcome_pure, Except.ok.injEq, parted, @eq_comm _ _ periods]

/-- An expression that is read at all is written as phrases. -/
theorem exists_written_of_read {t : Text} {periods : List Period × List Period}
    (h : (read t).outcome = .ok periods) : ∃ phrases, Written phrases t := by
  simp only [read, Logged.outcome_bind_eq_ok_iff, Logged.outcome_traverse_eq_ok_iff] at h
  obtain ⟨results, hclauses, -⟩ := h
  simp only [written_iff]
  generalize clauseTexts t = pieces at hclauses
  induction hclauses with
  | nil => exact ⟨[], .nil⟩
  | cons hclause _ ih =>
      obtain ⟨phrase, hphrase⟩ := exists_written_of_readClause hclause
      obtain ⟨phrases, hphrases⟩ := ih
      exact ⟨phrase :: phrases, .cons hphrase hphrases⟩

end Timetable.Expression
