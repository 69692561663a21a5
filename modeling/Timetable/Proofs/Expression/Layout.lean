import Timetable.Proofs.Expression.Clauses
import Timetable.Proofs.Text.Divider

/-!
# How clauses are laid out

Phrases are written in lowercase. A clause as it stands in an expression has its
letters in either case and perhaps gaps at its ends: it is laid out as blocks, one
for each group, behind a marker if it is negated. Trimmed and in lowercase it is
written as the phrase of its blocks, and no other texts are written as phrases
once they are trimmed and in lowercase.
-/

namespace Timetable.Expression

open Text (IsGap EndsWord IsSeparator)

/-- In lowercase the text is a spelling of the scale, perhaps in the plural and with a gap
behind it. -/
def SpellsScale (scale : Scale) (t : Text) : Prop :=
  ∃ spelling plural gap, (scale, spelling) ∈ Scale.spellings ∧ (plural = [] ∨ plural = ['s']) ∧
    IsGap gap ∧ Text.lowercase t = spelling ++ (plural ++ gap)

/-- The item with its ends in lowercase. -/
def Item.lowercase : Item Text → Item Text
  | single t => single (Text.lowercase t)
  | interval s t => interval (Text.lowercase s) (Text.lowercase t)

/-- A group as it stands in an expression. The text in front of its braces spells its scale,
and the text between them lists its items. -/
structure Block where
  scale : Scale
  items : List (Item Text)
  head : Text
  body : Text
  spellsScale : SpellsScale scale head
  listsItems : ItemsWritten items body
  brace_notMem : '\x7d' ∉ body

namespace Block

def text (block : Block) : Text := block.head ++ '\x7b' :: (block.body ++ ['\x7d'])

/-- The block that lists the items of its tokens. -/
def ofTokens (scale : Scale) (head body : Text) (hscale : SpellsScale scale head)
    (hplain : ∀ item ∈ (tokens body).map Item.ofToken, item.IsPlain) (hbrace : '\x7d' ∉ body) :
    Block where
  scale := scale
  items := (tokens body).map Item.ofToken
  head := head
  body := body
  spellsScale := hscale
  listsItems := itemsWritten_tokens hplain
  brace_notMem := hbrace

/-- What the block lists in lowercase. -/
def listing (block : Block) : Listing := ⟨block.scale, block.items.map Item.lowercase⟩

end Block

/-- The text is a sequence of blocks, with gaps around them. -/
inductive BlocksWritten : List Block → Text → Prop
  | nil {gap} (hgap : IsGap gap) : BlocksWritten [] gap
  | cons {gap block blocks t} (hgap : IsGap gap) (tail : BlocksWritten blocks t) :
      BlocksWritten (block :: blocks) (gap ++ (Block.text block ++ t))

/-- The text is laid out as blocks, behind a marker if they are negated. -/
inductive Layout : Bool → List Block → Text → Prop
  | plain {blocks t} (hne : blocks ≠ []) (h : BlocksWritten blocks t) : Layout false blocks t
  | negated {gap marker blocks t} (hgap : IsGap gap)
      (hmarker : Text.lowercase marker ∈ negations) (hne : blocks ≠ [])
      (h : BlocksWritten blocks t) : Layout true blocks (gap ++ (marker ++ t))

/-! ## Items -/

theorem isPart_iff (t : Text) :
    IsPart t ↔ t ≠ [] ∧ ∀ c, Text.isBlank c = true ∨ c = '-' → c ∉ t := by
  apply and_congr_right
  intro _
  constructor
  · rintro h c (hblank | rfl) hc
    · rw [(h c hc).1] at hblank
      cases hblank
    · exact (h '-' hc).2 rfl
  · intro h c hc
    exact ⟨Bool.eq_false_iff.mpr fun hblank => h c (Or.inl hblank) hc,
      fun heq => h c (Or.inr heq) hc⟩

theorem isPart_lowercase_iff (t : Text) : IsPart (Text.lowercase t) ↔ IsPart t := by
  rw [isPart_iff, isPart_iff]
  apply and_congr
  · constructor
    · rintro h rfl
      exact h rfl
    · exact Text.lowercase_ne_nil
  · apply forall₂_congr
    rintro c (hblank | rfl)
    · exact not_congr (Text.mem_lowercase_iff (Text.isSeparator_of_blank hblank))
    · exact not_congr (Text.mem_lowercase_iff (by decide))

/-- What follows a word is lowercased by itself. -/
theorem lowercase_append_of_endsWord {t : Text} (h : EndsWord t) (s : Text) :
    Text.lowercase (s ++ t) = Text.lowercase s ++ Text.lowercase t ∧
      EndsWord (Text.lowercase t) := by
  cases t with
  | nil =>
      rw [List.append_nil]
      exact ⟨(List.append_nil _).symm, Text.endsWord_nil⟩
  | cons c t =>
      have hc := Text.isSeparator_of_blank (Text.endsWord_cons.mp h)
      rw [Text.lowercase_append_separator hc, Text.lowercase_separator_cons hc]
      exact ⟨rfl, h⟩

/-- What follows a word in lowercase follows the word as it stands. -/
theorem exists_append_of_endsWord {x s t : Text} (ht : EndsWord t)
    (h : Text.lowercase x = s ++ t) :
    ∃ u v, x = u ++ v ∧ Text.lowercase u = s ∧ Text.lowercase v = t ∧ EndsWord v := by
  cases t with
  | nil =>
      rw [List.append_nil] at h
      exact ⟨x, [], (List.append_nil x).symm, h, rfl, Text.endsWord_nil⟩
  | cons c t =>
      have hc := Text.isSeparator_of_blank (Text.endsWord_cons.mp ht)
      obtain ⟨u, v, rfl, hu, hv⟩ := Text.exists_append_of_lowercase hc h
      exact ⟨u, c :: v, rfl, hu, by rw [Text.lowercase_separator_cons hc, hv], ht⟩

namespace Item

theorem Written.lowercase {item : Item Text} {t : Text} (h : item.Written t) :
    item.lowercase.Written (Text.lowercase t) := by
  cases h with
  | single hpart => exact Written.single ((isPart_lowercase_iff t).mpr hpart)
  | @interval low high before after hlow hhigh hbefore hafter =>
      rw [← List.append_assoc, Text.lowercase_append_separator (by decide),
        Text.lowercase_append_gap hbefore, Text.lowercase_gap_append hafter, List.append_assoc]
      exact Written.interval ((isPart_lowercase_iff low).mpr hlow)
        ((isPart_lowercase_iff high).mpr hhigh) hbefore hafter

/-- An item in lowercase is written where some item stands in either case. -/
theorem exists_written_of_lowercase {item : Item Text} {x : Text}
    (h : item.Written (Text.lowercase x)) :
    ∃ item' : Item Text, item'.Written x ∧ item'.lowercase = item := by
  generalize hx : Text.lowercase x = t at h
  cases h with
  | single hpart =>
      subst hx
      exact ⟨single x, Written.single ((isPart_lowercase_iff x).mp hpart), rfl⟩
  | @interval low high before after hlow hhigh hbefore hafter =>
      rw [← List.append_assoc] at hx
      obtain ⟨u, v, rfl, hu, hv⟩ := Text.exists_append_of_lowercase (by decide) hx
      obtain ⟨s, gap, rfl, rfl, rfl, -⟩ := exists_append_of_endsWord hbefore.endsWord hu
      obtain ⟨t, rfl, rfl⟩ := Text.exists_gap_append_of_lowercase hafter hv
      refine ⟨interval s t, ?_, rfl⟩
      rw [List.append_assoc]
      exact Written.interval ((isPart_lowercase_iff s).mp hlow) ((isPart_lowercase_iff t).mp hhigh)
        (Text.isGap_of_lowercase hbefore) hafter

end Item

theorem ItemsWritten.lowercase {items : List (Item Text)} {t : Text} (h : ItemsWritten items t) :
    ItemsWritten (items.map Item.lowercase) (Text.lowercase t) := by
  induction h with
  | nil hgap =>
      rw [Text.lowercase_gap hgap]
      exact ItemsWritten.nil hgap
  | @cons gap item s items t hgap hitem hend _ ih =>
      obtain ⟨hsplit, hlower⟩ := lowercase_append_of_endsWord hend s
      rw [Text.lowercase_gap_append hgap, hsplit]
      exact ItemsWritten.cons hgap hitem.lowercase hlower ih

theorem ItemsWritten.exists_of_lowercase {items : List (Item Text)} {x : Text}
    (h : ItemsWritten items (Text.lowercase x)) :
    ∃ items', ItemsWritten items' x ∧ items'.map Item.lowercase = items := by
  generalize hx : Text.lowercase x = t at h
  induction h generalizing x with
  | nil hgap => exact ⟨[], ItemsWritten.nil (Text.isGap_of_lowercase (hx ▸ hgap)), rfl⟩
  | @cons gap item s items t hgap hitem hend _ ih =>
      obtain ⟨y, rfl, hy⟩ := Text.exists_gap_append_of_lowercase hgap hx
      obtain ⟨u, v, rfl, rfl, hv, hv_end⟩ := exists_append_of_endsWord hend hy
      obtain ⟨first, hfirst, rfl⟩ := Item.exists_written_of_lowercase hitem
      obtain ⟨rest, hrest, rfl⟩ := ih hv
      exact ⟨first :: rest, ItemsWritten.cons hgap hfirst hv_end hrest, rfl⟩

/-! ## Blocks -/

namespace Block

theorem lowercase_text_append (block : Block) (t : Text) :
    Text.lowercase (block.text ++ t) = Text.lowercase block.head ++
      '\x7b' :: (Text.lowercase block.body ++ '\x7d' :: Text.lowercase t) := by
  rw [text, List.append_assoc, List.cons_append, List.append_assoc, List.singleton_append,
    Text.lowercase_append_separator (by decide), Text.lowercase_append_separator (by decide)]

/-- In lowercase a block is written as what it lists. -/
theorem exists_written (block : Block) (t : Text) :
    ∃ s, block.listing.Written s ∧ Text.lowercase (block.text ++ t) = s ++ Text.lowercase t := by
  obtain ⟨spelling, plural, gap, hspelling, hplural, hgap, hhead⟩ := block.spellsScale
  have hbrace : '\x7d' ∉ Text.lowercase block.body := fun hmem =>
    block.brace_notMem ((Text.mem_lowercase_iff (by decide)).mp hmem)
  refine ⟨_, Listing.Written.intro hspelling hplural hgap hbrace block.listsItems.lowercase, ?_⟩
  rw [lowercase_text_append, hhead]
  simp

end Block

theorem BlocksWritten.lowercase {blocks : List Block} {t : Text} (h : BlocksWritten blocks t) :
    ListingsWritten (blocks.map Block.listing) (Text.lowercase t) := by
  induction h with
  | nil hgap =>
      rw [Text.lowercase_gap hgap]
      exact ListingsWritten.nil hgap
  | @cons gap block blocks t hgap _ ih =>
      obtain ⟨s, hs, hsplit⟩ := block.exists_written t
      rw [Text.lowercase_gap_append hgap, hsplit]
      exact ListingsWritten.cons hgap hs ih

/-- Listings in lowercase are written where blocks stand in either case. -/
theorem exists_blocks_of_lowercase {listings : List Listing} {x : Text}
    (h : ListingsWritten listings (Text.lowercase x)) :
    ∃ blocks, BlocksWritten blocks x ∧ blocks.map Block.listing = listings := by
  generalize hx : Text.lowercase x = t at h
  induction h generalizing x with
  | nil hgap => exact ⟨[], BlocksWritten.nil (Text.isGap_of_lowercase (hx ▸ hgap)), rfl⟩
  | @cons gap listing s listings t hgap hlisting _ ih =>
      obtain ⟨y, rfl, hy⟩ := Text.exists_gap_append_of_lowercase hgap hx
      obtain @⟨scale, items, spelling, plural, inner, body, hspelling, hplural, hinner, hbrace,
        hitems⟩ := hlisting
      have hopen : Text.lowercase y =
          (spelling ++ (plural ++ inner)) ++ '\x7b' :: (body ++ '\x7d' :: t) := by
        rw [hy]
        simp
      obtain ⟨head, z, rfl, hhead, hz⟩ := Text.exists_append_of_lowercase (by decide) hopen
      obtain ⟨body, rest, rfl, rfl, hrest⟩ := Text.exists_append_of_lowercase (by decide) hz
      obtain ⟨parts, hparts, rfl⟩ := hitems.exists_of_lowercase
      obtain ⟨blocks, hblocks, rfl⟩ := ih hrest
      have hclosed : '\x7d' ∉ body := fun hmem =>
        hbrace ((Text.mem_lowercase_iff (by decide)).mpr hmem)
      let block : Block := ⟨scale, parts, head, body,
        ⟨spelling, plural, inner, hspelling, hplural, hinner, hhead⟩, hparts, hclosed⟩
      have hwritten : BlocksWritten (block :: blocks) (gap ++ (block.text ++ rest)) :=
        BlocksWritten.cons hgap hblocks
      exact ⟨block :: blocks, by simpa [Block.text, block] using hwritten, rfl⟩

/-! ## Trimmed phrases -/

/-- Behind the last listing there is only a gap. -/
theorem ListingsWritten.exists_append_gap {listings : List Listing} {t : Text} (hne : listings ≠ [])
    (h : ListingsWritten listings t) :
    ∃ s gap, t = (s ++ ['\x7d']) ++ gap ∧ IsGap gap ∧
      ListingsWritten listings (s ++ ['\x7d']) := by
  induction h with
  | nil => exact absurd rfl hne
  | @cons gap listing s listings t hgap hlisting tail ih =>
      cases listings with
      | nil =>
          obtain ⟨-, piece, -, -, rfl, -⟩ := hlisting.exists_group
          cases tail with
          | nil hlast =>
              refine ⟨gap ++ piece, t, by simp, hlast, ?_⟩
              simpa using ListingsWritten.cons hgap hlisting (ListingsWritten.nil Text.isGap_nil)
      | cons next listings =>
          obtain ⟨u, last, rfl, hlast, htail⟩ := ih (List.cons_ne_nil next listings)
          refine ⟨gap ++ (s ++ u), last, by simp, hlast, ?_⟩
          simpa using ListingsWritten.cons hgap hlisting htail

/-- Behind a closing brace a gap is trimmed away, and in front of it nothing is unless the text
starts with a blank. -/
theorem trim_append_brace_gap {s gap : Text} (hgap : IsGap gap)
    (hhead : ∀ c ∈ ((s ++ ['\x7d']) ++ gap).head?, Text.isBlank c = false) :
    Text.trim ((s ++ ['\x7d']) ++ gap) = s ++ ['\x7d'] := by
  rw [List.head?_append_of_ne_nil _ (by simp)] at hhead
  apply Text.trim_gap_append_gap Text.isGap_nil hgap hhead
  rw [List.getLast?_concat]
  rintro c ⟨⟩
  decide

theorem isBlank_head?_of_mem_negations {marker : Text} (h : marker ∈ negations) (t : Text) :
    ∀ c ∈ (marker ++ t).head?, Text.isBlank c = false := by
  simp only [negations, List.mem_cons, List.not_mem_nil, or_false] at h
  rcases h with rfl | rfl | rfl
  all_goals
    rintro c ⟨⟩
    decide

/-- A phrase is written without the gaps at its ends as well. -/
theorem Phrase.Written.trim {phrase : Phrase} {t : Text} (h : phrase.Written t) :
    phrase.Written (Text.trim t) := by
  cases h with
  | @plain listings t hne h =>
      obtain ⟨s, gap, hsplit, hgap, hs⟩ := (h.trimStart hne).exists_append_gap hne
      have hhead := Text.head?_trimStart t
      rw [hsplit] at hhead
      rw [← Text.trim_trimStart, hsplit, trim_append_brace_gap hgap hhead]
      exact Phrase.Written.plain hne hs
  | @negated marker listings t hmarker hne h =>
      obtain ⟨s, gap, rfl, hgap, hs⟩ := h.exists_append_gap hne
      have hhead := isBlank_head?_of_mem_negations hmarker ((s ++ ['\x7d']) ++ gap)
      rw [← List.append_assoc, ← List.append_assoc] at hhead ⊢
      rw [trim_append_brace_gap hgap hhead, List.append_assoc]
      exact Phrase.Written.negated hmarker hne hs

/-! ## Layouts -/

/-- Every marker ends with a separator. -/
theorem exists_separator_of_mem_negations {marker : Text} (h : marker ∈ negations) :
    ∃ s c, IsSeparator c ∧ marker = s ++ [c] := by
  simp only [negations, List.mem_cons, List.not_mem_nil, or_false] at h
  rcases h with rfl | rfl | rfl
  · exact ⟨[], '!', by decide, rfl⟩
  · exact ⟨"not".toList, ' ', by decide, rfl⟩
  · exact ⟨"except".toList, ' ', by decide, rfl⟩

theorem lowercase_marker_append {marker : Text} (h : Text.lowercase marker ∈ negations) (t : Text) :
    Text.lowercase (marker ++ t) = Text.lowercase marker ++ Text.lowercase t := by
  obtain ⟨s, c, hc, hmarker⟩ := exists_separator_of_mem_negations h
  obtain ⟨u, v, rfl, hu, hv⟩ := Text.exists_append_of_lowercase hc hmarker
  obtain rfl := Text.eq_nil_of_lowercase hv
  rw [List.append_assoc, List.singleton_append, Text.lowercase_append_separator hc, hmarker, hu]
  simp

theorem not_written_nil (phrase : Phrase) : ¬phrase.Written [] := by
  intro h
  generalize hx : ([] : Text) = x at h
  cases h with
  | plain hne h =>
      obtain ⟨s, gap, rfl, -, -⟩ := h.exists_append_gap hne
      simp at hx
  | negated hmarker =>
      obtain ⟨s, c, -, rfl⟩ := exists_separator_of_mem_negations hmarker
      simp at hx

/-- In lowercase a text is written as the phrase of its blocks. -/
theorem Layout.written {negative : Bool} {blocks : List Block} {t : Text}
    (h : Layout negative blocks t) :
    Phrase.Written ⟨negative, blocks.map Block.listing⟩ (Text.lowercase (Text.trim t)) := by
  rw [← Text.trim_lowercase]
  cases h with
  | plain hne h => exact (Phrase.Written.plain (List.map_eq_nil_iff.not.mpr hne) h.lowercase).trim
  | @negated gap marker blocks t hgap hmarker hne h =>
      have hwritten := Phrase.Written.negated hmarker (List.map_eq_nil_iff.not.mpr hne) h.lowercase
      have htrim := Text.trim_gap_append_append_gap hgap Text.isGap_nil
        (Text.lowercase marker ++ Text.lowercase t)
      rw [List.append_nil] at htrim
      rw [Text.lowercase_gap_append hgap, lowercase_marker_append hmarker, htrim]
      exact hwritten.trim

theorem BlocksWritten.gap_append {blocks : List Block} {gap t : Text} (hgap : IsGap gap)
    (h : BlocksWritten blocks t) : BlocksWritten blocks (gap ++ t) := by
  cases h with
  | nil ht => exact BlocksWritten.nil (Text.isGap_append.mpr ⟨hgap, ht⟩)
  | cons ht tail =>
      rw [← List.append_assoc]
      exact BlocksWritten.cons (Text.isGap_append.mpr ⟨hgap, ht⟩) tail

theorem BlocksWritten.append_gap {blocks : List Block} {gap t : Text} (hgap : IsGap gap)
    (h : BlocksWritten blocks t) : BlocksWritten blocks (t ++ gap) := by
  induction h with
  | nil ht => exact BlocksWritten.nil (Text.isGap_append.mpr ⟨ht, hgap⟩)
  | cons ht _ ih =>
      rw [List.append_assoc, List.append_assoc]
      exact BlocksWritten.cons ht ih

/-- A text is laid out as blocks wherever it is written as a phrase in lowercase. -/
theorem Phrase.Written.exists_layout {phrase : Phrase} {t : Text}
    (h : phrase.Written (Text.lowercase (Text.trim t))) :
    ∃ blocks, Layout phrase.negative blocks t ∧ blocks.map Block.listing = phrase.listings := by
  obtain ⟨before, after, hbefore, hafter, ht⟩ := Text.exists_gap_trim t
  generalize hx : Text.lowercase (Text.trim t) = x at h
  rw [ht]
  cases h with
  | @plain listings x hne h =>
      obtain ⟨blocks, hblocks, rfl⟩ := exists_blocks_of_lowercase (hx ▸ h)
      have hlayout := (hblocks.append_gap hafter).gap_append hbefore
      exact ⟨blocks, Layout.plain (List.map_eq_nil_iff.not.mp hne) hlayout, rfl⟩
  | @negated marker listings x hmarker hne h =>
      obtain ⟨s, c, hc, rfl⟩ := exists_separator_of_mem_negations hmarker
      rw [List.append_assoc, List.singleton_append] at hx
      obtain ⟨u, v, huv, hu, rfl⟩ := Text.exists_append_of_lowercase hc hx
      obtain ⟨blocks, hblocks, rfl⟩ := exists_blocks_of_lowercase h
      have hlower : Text.lowercase (u ++ [c]) ∈ negations := by
        rw [Text.lowercase_append_separator hc, hu]
        exact hmarker
      have hlayout := Layout.negated hbefore hlower (List.map_eq_nil_iff.not.mp hne)
        (hblocks.append_gap hafter)
      refine ⟨blocks, ?_, rfl⟩
      rw [huv]
      simpa using hlayout

/-! ## Commas -/

/-- Gaps aside, what stands in an item stands in its token. -/
theorem Item.Written.mem_iff {item : Item Text} {t : Text} {c : Char}
    (hc : Text.isBlank c = false) (h : item.Written t) : c ∈ t ↔ c ∈ item.token := by
  cases h with
  | single => rfl
  | @interval low high before after hlow hhigh hbefore hafter =>
      simp [Item.token, hbefore.notMem hc, hafter.notMem hc]

theorem ItemsWritten.mem_iff_exists {items : List (Item Text)} {t : Text} {c : Char}
    (hc : Text.isBlank c = false) (h : ItemsWritten items t) :
    c ∈ t ↔ ∃ item ∈ items, c ∈ item.token := by
  induction h with
  | nil hgap => simp [hgap.notMem hc]
  | cons hgap hitem _ _ ih => simp [hgap.notMem hc, hitem.mem_iff hc, ih]

theorem SpellsScale.comma_notMem {scale : Scale} {t : Text} (h : SpellsScale scale t) :
    ',' ∉ t := by
  obtain ⟨spelling, plural, gap, hspelling, hplural, hgap, ht⟩ := h
  have hall : ∀ entry ∈ Scale.spellings, ',' ∉ entry.2 := by decide
  have hplural' : ',' ∉ plural := by
    rcases hplural with rfl | rfl <;> decide
  rw [← Text.mem_lowercase_iff (by decide), ht]
  simp [hall _ hspelling, hplural', hgap.notMem (show Text.isBlank ',' = false by decide)]

theorem BlocksWritten.comma_mem_iff {blocks : List Block} {t : Text} (h : BlocksWritten blocks t) :
    ',' ∈ t ↔ ∃ block ∈ blocks, ∃ item ∈ block.items, ',' ∈ item.token := by
  have hc : Text.isBlank ',' = false := by decide
  induction h with
  | nil hgap => simp [hgap.notMem hc]
  | @cons gap block blocks t hgap _ ih =>
      simp [Block.text, hgap.notMem hc, block.spellsScale.comma_notMem,
        block.listsItems.mem_iff_exists hc, ih]

/-- A text that is laid out has commas only in its items. -/
theorem Layout.comma_mem_iff {negative : Bool} {blocks : List Block} {t : Text}
    (h : Layout negative blocks t) :
    ',' ∈ t ↔ ∃ block ∈ blocks, ∃ item ∈ block.items, ',' ∈ item.token := by
  cases h with
  | plain _ h => exact h.comma_mem_iff
  | @negated gap marker blocks t hgap hmarker _ h =>
      have hmark : ',' ∉ marker := by
        rw [← Text.mem_lowercase_iff (by decide)]
        have hall : ∀ marker ∈ negations, ',' ∉ marker := by decide
        exact hall _ hmarker
      simp [hgap.notMem (show Text.isBlank ',' = false by decide), hmark, h.comma_mem_iff]

end Timetable.Expression
