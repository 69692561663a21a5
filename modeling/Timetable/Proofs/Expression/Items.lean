import Timetable.Expression.Item
import Timetable.Proofs.Text.Gap

/-!
# How items are written

The body of a group is written by listing items with gaps between them, each a
part or two parts around a hyphen, which may have gaps on either side. Joining
the words of a text over hyphens finds these items again, and a text whose
tokens are tokens of items is written in this way.
-/

namespace Timetable.Expression

open Text (IsGap IsWord EndsWord Spaces)

/-- A nonempty text without blanks and hyphens. -/
def IsPart (t : Text) : Prop := t ≠ [] ∧ ∀ c ∈ t, Text.isBlank c = false ∧ c ≠ '-'

namespace Item

/-- The ends of the item can be told from a hyphen between them. -/
def IsPlain : Item Text → Prop
  | single part => IsPart part
  | interval low high => IsPart low ∧ IsPart high

/-- The item without any blanks. -/
def token : Item Text → Text
  | single part => part
  | interval low high => low ++ '-' :: high

/-- The text is the item, perhaps with gaps around its hyphen. -/
inductive Written : Item Text → Text → Prop
  | single {part} (h : IsPart part) : Written (single part) part
  | interval {low high before after} (hlow : IsPart low) (hhigh : IsPart high)
      (hbefore : IsGap before) (hafter : IsGap after) :
      Written (interval low high) (low ++ (before ++ '-' :: (after ++ high)))

end Item

/-- The text lists the items, with gaps between them and perhaps before and after them. -/
inductive ItemsWritten : List (Item Text) → Text → Prop
  | nil {gap} (hgap : IsGap gap) : ItemsWritten [] gap
  | cons {gap item s items t} (hgap : IsGap gap) (hitem : item.Written s) (hend : EndsWord t)
      (tail : ItemsWritten items t) : ItemsWritten (item :: items) (gap ++ (s ++ t))

instance (t : Text) : Decidable (IsPart t) :=
  decidable_of_iff (t ≠ [] ∧ (t.all fun c => !Text.isBlank c && c != '-') = true)
    (by simp [IsPart])

instance : (item : Item Text) → Decidable item.IsPlain
  | .single part => inferInstanceAs (Decidable (IsPart part))
  | .interval low high => inferInstanceAs (Decidable (IsPart low ∧ IsPart high))

theorem IsPart.isWord {t : Text} (h : IsPart t) : IsWord t := ⟨h.1, fun c hc => (h.2 c hc).1⟩

theorem IsPart.hyphen_notMem {t : Text} (h : IsPart t) : '-' ∉ t := fun hc => (h.2 _ hc).2 rfl

theorem IsPart.head?_ne {t : Text} (h : IsPart t) : t.head? ≠ some '-' := fun hc =>
  h.hyphen_notMem (List.mem_of_mem_head? hc)

theorem IsPart.getLast?_ne {t : Text} (h : IsPart t) : t.getLast? ≠ some '-' := fun hc =>
  h.hyphen_notMem (List.mem_of_getLast? hc)

/-- A word and a hyphen in front of it make a longer word. -/
theorem IsPart.isWord_hyphen_cons {t : Text} (h : IsPart t) : IsWord ('-' :: t) := by
  refine ⟨List.cons_ne_nil _ _, fun c hc => ?_⟩
  rcases List.mem_cons.mp hc with rfl | hc
  · decide
  · exact (h.2 c hc).1

namespace Item

theorem IsPlain.token_head?_ne {item : Item Text} (h : item.IsPlain) :
    item.token.head? ≠ some '-' := by
  cases item with
  | single part => exact IsPart.head?_ne h
  | interval low high =>
      rw [token, List.head?_append_of_ne_nil _ h.1.1]
      exact h.1.head?_ne

/-- The first hyphen parts the ends of an item again. -/
theorem ofToken_token {item : Item Text} (h : item.IsPlain) : ofToken item.token = item := by
  cases item with
  | single part =>
      have hall : ∀ c ∈ part, (c != '-') = true := fun c hc => by simpa using (h.2 c hc).2
      have hdrop : part.dropWhile (· != '-') = [] := List.dropWhile_eq_nil_iff.mpr hall
      simp only [ofToken, token, hdrop]
  | interval low high =>
      have hall : ∀ c ∈ low, (c != '-') = true := fun c hc => by simpa using (h.1.2 c hc).2
      simp [ofToken, token, List.dropWhile_append_of_pos hall, List.takeWhile_append_of_pos hall]

theorem token_ofToken (t : Text) : (ofToken t).token = t := by
  have hsplit : t.takeWhile (· != '-') ++ t.dropWhile (· != '-') = t :=
    List.takeWhile_append_dropWhile
  cases hdrop : t.dropWhile (· != '-') with
  | nil => simp only [ofToken, hdrop, token]
  | cons c rest =>
      have hc : c = '-' := by
        have hhead := List.head?_dropWhile_not (· != '-') t
        simpa [hdrop] using hhead
      rw [hdrop, hc] at hsplit
      simpa only [ofToken, hdrop, token] using hsplit

theorem Written.isPlain {item : Item Text} {t : Text} (h : item.Written t) : item.IsPlain := by
  cases h with
  | single h => exact h
  | interval hlow hhigh => exact ⟨hlow, hhigh⟩

end Item

theorem ItemsWritten.isPlain {items : List (Item Text)} {t : Text} (h : ItemsWritten items t) :
    ∀ item ∈ items, item.IsPlain := by
  induction h with
  | nil => exact fun _ h => absurd h List.not_mem_nil
  | cons _ hitem _ _ ih => exact List.forall_mem_cons.mpr ⟨hitem.isPlain, ih⟩

/-! ## Joining words over hyphens -/

/-- The tokens start with no hyphen, so that nothing is joined to them from the left. -/
def StartsPlain (tokens : List Text) : Prop := ∀ token ∈ tokens.head?, token.head? ≠ some '-'

theorem startsPlain_map_token {items : List (Item Text)} (h : ∀ item ∈ items, item.IsPlain) :
    StartsPlain (items.map Item.token) := by
  cases items with
  | nil => exact fun _ h => by simp at h
  | cons item rest =>
      rintro token htoken
      obtain rfl : item.token = token := by simpa using htoken
      exact (h item List.mem_cons_self).token_head?_ne

theorem attach_of_plain {w : Text} {rest : List Text} (hlast : w.getLast? ≠ some '-')
    (hrest : StartsPlain rest) : attach w rest = w :: rest := by
  cases rest with
  | nil => rfl
  | cons token rest =>
      have hhead := hrest token rfl
      simp [attach, hlast, hhead]

theorem attach_of_hyphen {w token : Text} {rest : List Text}
    (h : w.getLast? = some '-' ∨ token.head? = some '-') :
    attach w (token :: rest) = (w ++ token) :: rest := by
  simp [attach, h]

/-- What is joined to a word is joined to a longer one with the same end. -/
theorem attach_append {s w first : Text} {tokens rest : List Text} (hw : w ≠ [])
    (h : attach w tokens = first :: rest) : attach (s ++ w) tokens = (s ++ first) :: rest := by
  have hlast : (s ++ w).getLast? = w.getLast? := List.getLast?_append_of_ne_nil s hw
  cases tokens with
  | nil =>
      obtain ⟨rfl, rfl⟩ := List.cons.inj h
      rfl
  | cons token tail =>
      simp only [attach, hlast] at h ⊢
      split at h
      · obtain ⟨rfl, rfl⟩ := List.cons.inj h
        simp_all
      · obtain ⟨rfl, rfl⟩ := List.cons.inj h
        simp_all

theorem tokens_gap_append {gap : Text} (h : IsGap gap) (t : Text) :
    tokens (gap ++ t) = tokens t := by
  rw [tokens, Text.words_gap_append h]
  rfl

theorem tokens_word_append {w t : Text} (hw : IsWord w) (hend : EndsWord t) :
    tokens (w ++ t) = attach w (tokens t) := by
  rw [tokens, Text.words_word_append hw hend]
  rfl

/-- A text that starts with a hyphen and a part has the two in one token. -/
theorem tokens_hyphen_cons {high after t : Text} (hhigh : IsPart high) (hafter : IsGap after)
    (hend : EndsWord t) (hplain : StartsPlain (tokens t)) :
    tokens ('-' :: (after ++ (high ++ t))) = ('-' :: high) :: tokens t := by
  cases after with
  | nil =>
      have hlast : ('-' :: high).getLast? ≠ some '-' := by
        rw [List.getLast?_cons_of_ne_nil hhigh.1]
        exact hhigh.getLast?_ne
      rw [List.nil_append, ← List.cons_append, tokens_word_append hhigh.isWord_hyphen_cons hend,
        attach_of_plain hlast hplain]
  | cons c rest =>
      have hword : IsWord ['-'] := ⟨List.cons_ne_nil _ _, by simp; decide⟩
      have hend' : EndsWord (c :: rest ++ (high ++ t)) := Text.endsWord_cons.mpr
        (Text.isGap_cons.mp hafter).1
      rw [← List.singleton_append, tokens_word_append hword hend', tokens_gap_append hafter,
        tokens_word_append hhigh.isWord hend, attach_of_plain hhigh.getLast?_ne hplain,
        attach_of_hyphen (Or.inl rfl)]
      rfl

/-- A part in front of a hyphen joins the token that starts with it. -/
theorem tokens_append_hyphen {low before s token : Text} {rest : List Text} (hlow : IsPart low)
    (hbefore : IsGap before) (h : tokens ('-' :: s) = ('-' :: token) :: rest) :
    tokens (low ++ (before ++ '-' :: s)) = (low ++ '-' :: token) :: rest := by
  cases before with
  | nil =>
      obtain ⟨w, t, hw, hend, hsplit⟩ := Text.exists_word_append (c := '-') (by decide) s
      have hlow : IsWord (low ++ w) := by
        refine ⟨by simp [hw.1], fun c hc => ?_⟩
        rcases List.mem_append.mp hc with hc | hc
        · exact hlow.isWord.2 c hc
        · exact hw.2 c hc
      rw [hsplit, tokens_word_append hw hend] at h
      rw [List.nil_append, hsplit, ← List.append_assoc, tokens_word_append hlow hend]
      exact attach_append hw.1 h
  | cons c gap =>
      have hend : EndsWord (c :: gap ++ '-' :: s) := Text.endsWord_cons.mpr
        (Text.isGap_cons.mp hbefore).1
      rw [tokens_word_append hlow.isWord hend, tokens_gap_append hbefore, h,
        attach_of_hyphen (Or.inr rfl)]

/-- A written list of items has these items for its tokens. -/
theorem ItemsWritten.tokens_eq {items : List (Item Text)} {t : Text} (h : ItemsWritten items t) :
    tokens t = items.map Item.token := by
  induction h with
  | nil hgap =>
      rw [tokens, Text.words_gap hgap]
      rfl
  | @cons gap item s items t hgap hitem hend tail ih =>
      have hplain : StartsPlain (tokens t) := ih ▸ startsPlain_map_token tail.isPlain
      rw [tokens_gap_append hgap, List.map_cons, ← ih]
      cases hitem with
      | single hpart =>
          rw [tokens_word_append hpart.isWord hend, attach_of_plain hpart.getLast?_ne hplain]
          rfl
      | interval hlow hhigh hbefore hafter =>
          have htail := tokens_hyphen_cons hhigh hafter hend hplain
          simpa [Item.token] using tokens_append_hyphen hlow hbefore htail

/-- The items of a text are those that its tokens are read as. -/
theorem ItemsWritten.map_ofToken_tokens {items : List (Item Text)} {t : Text}
    (h : ItemsWritten items t) : (tokens t).map Item.ofToken = items := by
  rw [h.tokens_eq, List.map_map]
  exact (List.map_congr_left fun item hi => Item.ofToken_token (h.isPlain item hi)).trans
    (List.map_id items)

/-! ## Reading items off tokens -/

/-- The text lists the items behind a hyphen and the upper end of an interval. -/
inductive TailWritten (high : Text) (items : List (Item Text)) : Text → Prop
  | intro {gap after t} (hgap : IsGap gap) (hafter : IsGap after) (hend : EndsWord t)
      (tail : ItemsWritten items t) : TailWritten high items (gap ++ '-' :: (after ++ (high ++ t)))

/-- Only one hyphen stands between two parts. -/
theorem eq_of_append_hyphen {low high s t : Text} (hlow : IsPart low) (hhigh : IsPart high)
    (h : low ++ '-' :: high = s ++ '-' :: t) : s = low ∧ t = high := by
  rcases List.append_eq_append_iff.mp h with ⟨u, rfl, hu⟩ | ⟨u, rfl, hu⟩
  · cases u with
    | nil => simpa [eq_comm] using hu
    | cons c u =>
        have hmem : '-' ∈ high := by
          rw [List.cons_append] at hu
          rw [(List.cons.inj hu).2]
          simp
        exact absurd hmem hhigh.hyphen_notMem
  · cases u with
    | nil => simpa using hu
    | cons c u =>
        have hmem : '-' ∈ s ++ c :: u := by
          rw [List.cons_append] at hu
          rw [← (List.cons.inj hu).1]
          simp
        exact absurd hmem hlow.hyphen_notMem

/-- A plain item whose token is a single word is written as that word. -/
theorem Item.IsPlain.written_token {item : Item Text} (h : item.IsPlain) :
    item.Written item.token := by
  cases item with
  | single part => exact Written.single h
  | interval low high =>
      exact Written.interval h.1 h.2 Text.isGap_nil Text.isGap_nil

/-- A word becomes a token of its own, or is joined to the next one over its own hyphen or
over the hyphen in front of that one. -/
theorem attach_cases {w first : Text} {tokens rest : List Text}
    (h : attach w tokens = first :: rest) :
    (first = w ∧ rest = tokens) ∨
    (∃ s token, w = s ++ ['-'] ∧ tokens = token :: rest ∧ first = s ++ '-' :: token) ∨
    ∃ token, tokens = ('-' :: token) :: rest ∧ first = w ++ '-' :: token := by
  cases tokens with
  | nil =>
      obtain ⟨rfl, rfl⟩ := List.cons.inj h
      exact Or.inl ⟨rfl, rfl⟩
  | cons token tail =>
      by_cases hlast : w.getLast? = some '-'
      · rw [attach_of_hyphen (Or.inl hlast)] at h
        obtain ⟨rfl, rfl⟩ := List.cons.inj h
        obtain ⟨s, rfl⟩ := List.getLast?_eq_some_iff.mp hlast
        exact Or.inr (Or.inl ⟨s, token, rfl, rfl, by simp⟩)
      by_cases hhead : token.head? = some '-'
      · rw [attach_of_hyphen (Or.inr hhead)] at h
        obtain ⟨rfl, rfl⟩ := List.cons.inj h
        obtain ⟨rest, rfl⟩ := List.head?_eq_some_iff.mp hhead
        exact Or.inr (Or.inr ⟨rest, rfl, rfl⟩)
      · have hplain : StartsPlain (token :: tail) := by
          rintro _ ⟨⟩
          exact hhead
        rw [attach_of_plain hlast hplain] at h
        obtain ⟨rfl, rfl⟩ := List.cons.inj h
        exact Or.inl ⟨rfl, rfl⟩

/-- An item whose token has a hyphen in it is the interval around that hyphen. -/
theorem Item.IsPlain.eq_interval {item : Item Text} {s t : Text} (h : item.IsPlain)
    (htoken : item.token = s ++ '-' :: t) : item = interval s t := by
  cases item with
  | single part =>
      have hmem : '-' ∈ part := by
        rw [show part = s ++ '-' :: t from htoken]
        simp
      exact absurd hmem (IsPart.hyphen_notMem h)
  | interval low high =>
      obtain ⟨rfl, rfl⟩ := eq_of_append_hyphen h.1 h.2 htoken
      rfl

/-- The first item of a list stands at the start of its text, behind a gap. -/
theorem ItemsWritten.exists_of_single {part t : Text} {items : List (Item Text)}
    (h : ItemsWritten (.single part :: items) t) :
    ∃ gap u, IsGap gap ∧ EndsWord u ∧ ItemsWritten items u ∧ t = gap ++ (part ++ u) := by
  cases h with
  | cons hgap hitem hend tail =>
      cases hitem with
      | single => exact ⟨_, _, hgap, hend, tail, rfl⟩

/-- A text with the given tokens lists the items that these are tokens of. -/
def ListsItems (tokens : List Text) (t : Text) : Prop :=
  ∀ items, (∀ item ∈ items, item.IsPlain) → tokens = items.map Item.token → ItemsWritten items t

/-- A text with the given tokens goes on behind the lower end of an interval, if the first
token starts with a hyphen and the others are tokens of items. -/
def ListsTail (tokens : List Text) (t : Text) : Prop :=
  ∀ high items, IsPart high → (∀ item ∈ items, item.IsPlain) →
    tokens = ('-' :: high) :: items.map Item.token → TailWritten high items t

theorem ListsItems.exists_of_part {high t : Text} {tokens : List Text} {items : List (Item Text)}
    (h : ListsItems tokens t) (hhigh : IsPart high) (hplain : ∀ item ∈ items, item.IsPlain)
    (htokens : tokens = high :: items.map Item.token) :
    ∃ gap u, IsGap gap ∧ EndsWord u ∧ ItemsWritten items u ∧ t = gap ++ (high ++ u) := by
  apply ItemsWritten.exists_of_single
  apply h (.single high :: items)
  · exact List.forall_mem_cons.mpr ⟨hhigh, hplain⟩
  · exact htokens

theorem attach_ne_nil (w : Text) (tokens : List Text) : attach w tokens ≠ [] := by
  cases tokens with
  | nil => exact List.cons_ne_nil _ _
  | cons token rest =>
      rw [attach]
      split <;> exact List.cons_ne_nil _ _

variable {gap w t : Text} {joined : List Text}

/-- One more word in front is an item of its own or the lower end of an interval. -/
theorem listsItems_attach (hgap : IsGap gap) (hw : IsWord w) (hend : EndsWord t)
    (hitems : ListsItems joined t) (htail : ListsTail joined t) :
    ListsItems (attach w joined) (gap ++ (w ++ t)) := by
  intro items hplain htokens
  cases items with
  | nil => exact absurd htokens (attach_ne_nil w joined)
  | cons item items =>
      obtain ⟨hitem, hothers⟩ := List.forall_mem_cons.mp hplain
      rcases attach_cases htokens with ⟨hfirst, hrest⟩ | ⟨s, high, rfl, hrest, hfirst⟩ |
        ⟨high, hrest, hfirst⟩
      · rw [← hfirst]
        exact ItemsWritten.cons hgap hitem.written_token hend (hitems items hothers hrest.symm)
      · obtain rfl := hitem.eq_interval hfirst
        obtain ⟨after, u, hafter, hu, hwritten, rfl⟩ := hitems.exists_of_part hitem.2 hothers hrest
        simpa using ItemsWritten.cons hgap
          (Item.Written.interval hitem.1 hitem.2 Text.isGap_nil hafter) hu hwritten
      · obtain rfl := hitem.eq_interval hfirst
        obtain ⟨hbefore, hafter, hu, hwritten⟩ := htail high items hitem.2 hothers hrest
        simpa using ItemsWritten.cons hgap
          (Item.Written.interval hitem.1 hitem.2 hbefore hafter) hu hwritten

/-- One more word in front starts with the hyphen, together with the upper end behind it or
without. -/
theorem listsTail_attach (hgap : IsGap gap) (hw : IsWord w) (hend : EndsWord t)
    (hitems : ListsItems joined t) : ListsTail (attach w joined) (gap ++ (w ++ t)) := by
  intro high items hhigh hplain htokens
  rcases attach_cases htokens with ⟨rfl, hrest⟩ | ⟨s, token, rfl, hrest, hfirst⟩ |
    ⟨token, hrest, hfirst⟩
  · exact TailWritten.intro hgap Text.isGap_nil hend (hitems items hplain hrest.symm)
  · cases s with
    | nil =>
        obtain ⟨_, rfl⟩ := List.cons.inj hfirst
        obtain ⟨after, u, hafter, hu, hwritten, rfl⟩ := hitems.exists_of_part hhigh hplain hrest
        exact TailWritten.intro hgap hafter hu hwritten
    | cons c s =>
        obtain ⟨_, rfl⟩ := List.cons.inj hfirst
        exact absurd (by simp) hhigh.hyphen_notMem
  · cases w with
    | nil => exact absurd rfl hw.1
    | cons c s =>
        obtain ⟨_, rfl⟩ := List.cons.inj hfirst
        exact absurd (by simp) hhigh.hyphen_notMem

/-- Spaced words go on in both ways that their joined tokens tell. -/
theorem lists_of_spaces {ws : List Text} (h : Spaces ws t) :
    ListsItems (ws.foldr attach []) t ∧ ListsTail (ws.foldr attach []) t := by
  induction h with
  | nil hgap =>
      constructor
      · intro items _ hitems
        obtain rfl : items = [] := List.map_eq_nil_iff.mp hitems.symm
        exact ItemsWritten.nil hgap
      · intro high items _ _ hitems
        exact absurd hitems.symm (List.cons_ne_nil _ _)
  | cons hgap hw hend tail ih =>
      constructor
      · exact listsItems_attach hgap hw hend ih.1 ih.2
      · exact listsTail_attach hgap hw hend ih.1

/-- A text lists plain items exactly when their tokens are its tokens. -/
theorem itemsWritten_iff (items : List (Item Text)) (t : Text) :
    ItemsWritten items t ↔
      (∀ item ∈ items, item.IsPlain) ∧ tokens t = items.map Item.token := by
  constructor
  · intro h
    exact ⟨h.isPlain, h.tokens_eq⟩
  · rintro ⟨hplain, htokens⟩
    exact (lists_of_spaces (Text.spaces_words t)).1 items hplain htokens

theorem itemsWritten_trim (items : List (Item Text)) (t : Text) :
    ItemsWritten items (Text.trim t) ↔ ItemsWritten items t := by
  rw [itemsWritten_iff, itemsWritten_iff, tokens, tokens, Text.words_trim]

/-- A text lists the items of its tokens, as long as these are plain. -/
theorem itemsWritten_tokens {t : Text}
    (h : ∀ item ∈ (tokens t).map Item.ofToken, item.IsPlain) :
    ItemsWritten ((tokens t).map Item.ofToken) t := by
  refine (itemsWritten_iff _ t).mpr ⟨h, ?_⟩
  rw [List.map_map]
  exact ((List.map_congr_left fun token _ => Item.token_ofToken token).trans
    (List.map_id (tokens t))).symm

end Timetable.Expression
