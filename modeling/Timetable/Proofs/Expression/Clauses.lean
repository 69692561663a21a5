import Mathlib.Data.List.Forall2
import Timetable.Expression.Clause
import Timetable.Proofs.Expression.Items
import Timetable.Proofs.Scale
import Timetable.Proofs.Text.Printed

/-!
# How clauses are written

A clause is written as an optional negation and one or more listings, each a
spelled scale, perhaps in the plural, and the items of its body between braces.
Cutting a text at closing braces finds these listings again, and every text
that leaves nothing over is written in this way.
-/

namespace Timetable.Expression

open Text (IsGap)

/-- A scale and the items that are listed for it. -/
structure Listing where
  scale : Scale
  items : List (Item Text)

/-- The text spells the scale and lists the items between braces. -/
inductive Listing.Written : Listing → Text → Prop
  | intro {scale items spelling plural gap body} (hspelling : (scale, spelling) ∈ Scale.spellings)
      (hplural : plural = [] ∨ plural = ['s']) (hgap : IsGap gap) (hbody : '\x7d' ∉ body)
      (hitems : ItemsWritten items body) :
      Written ⟨scale, items⟩ (spelling ++ (plural ++ (gap ++ '\x7b' :: (body ++ ['\x7d']))))

/-- The text is a sequence of listings, with gaps around them. -/
inductive ListingsWritten : List Listing → Text → Prop
  | nil {gap} (hgap : IsGap gap) : ListingsWritten [] gap
  | cons {gap listing s listings t} (hgap : IsGap gap) (hlisting : listing.Written s)
      (tail : ListingsWritten listings t) : ListingsWritten (listing :: listings) (gap ++ (s ++ t))

/-- The listings of a clause and whether they are negated. -/
structure Phrase where
  negative : Bool
  listings : List Listing

/-- The text is the phrase, with a marker in front if it is negated. -/
inductive Phrase.Written : Phrase → Text → Prop
  | plain {listings t} (hne : listings ≠ []) (h : ListingsWritten listings t) :
      Written ⟨false, listings⟩ t
  | negated {marker listings t} (hmarker : marker ∈ negations) (hne : listings ≠ [])
      (h : ListingsWritten listings t) : Written ⟨true, listings⟩ (marker ++ t)

/-! ## Groups before their closing braces -/

/-- The text is a group up to its closing brace, with a gap in front. -/
inductive Group.Opened : Group → Text → Prop
  | intro {scale spelling plural before gap body} (hbefore : IsGap before)
      (hspelling : (scale, spelling) ∈ Scale.spellings) (hplural : plural = [] ∨ plural = ['s'])
      (hgap : IsGap gap) :
      Opened ⟨scale, Text.trim body⟩ (before ++ (spelling ++ (plural ++ (gap ++ '\x7b' :: body))))

theorem trimStart_spelling {scale : Scale} {spelling : Text}
    (h : (scale, spelling) ∈ Scale.spellings) (t : Text) :
    Text.trimStart (spelling ++ t) = spelling ++ t := by
  obtain ⟨c, hc, hhead⟩ := Scale.exists_initial h
  obtain ⟨rest, rfl⟩ := List.head?_eq_some_iff.mp hhead
  exact Text.trimStart_of_head (Scale.isBlank_of_mem_initials hc)

theorem dropPlural_of_head {t : Text} (h : ∀ c ∈ t.head?, c ≠ 's') : Group.dropPlural t = t := by
  unfold Group.dropPlural
  split
  · exact absurd rfl (h 's' rfl)
  · rfl

theorem exists_plural (t : Text) :
    ∃ plural, (plural = [] ∨ plural = ['s']) ∧ t = plural ++ Group.dropPlural t := by
  unfold Group.dropPlural
  split
  · exact ⟨['s'], Or.inr rfl, rfl⟩
  · exact ⟨[], Or.inl rfl, rfl⟩

/-- A gap with a brace behind it starts with a blank or with the brace. -/
theorem head?_gap_append_brace {gap body : Text} (hgap : IsGap gap) :
    ∀ c ∈ (gap ++ '\x7b' :: body).head?, c = '\x7b' ∨ Text.isBlank c = true := by
  intro c hc
  cases gap with
  | nil => exact Or.inl (by simpa using hc.symm)
  | cons d gap =>
      obtain rfl : d = c := by simpa using hc
      exact Or.inr (hgap d List.mem_cons_self)

/-- What follows a spelling in a group does not go on like a name. -/
theorem head?_notMem_afterCode {plural gap body : Text} (hplural : plural = [] ∨ plural = ['s'])
    (hgap : IsGap gap) :
    ∀ c ∈ (plural ++ (gap ++ '\x7b' :: body)).head?, c ∉ Scale.afterCode := by
  intro c hc hmem
  rcases hplural with rfl | rfl
  · rcases head?_gap_append_brace hgap c hc with rfl | hc
    · revert hmem
      decide
    · rw [Scale.isBlank_of_mem_afterCode hmem] at hc
      exact Bool.false_ne_true hc
  · obtain rfl : 's' = c := by simpa using hc
    revert hmem
    decide

theorem dropPlural_append {plural gap body : Text} (hplural : plural = [] ∨ plural = ['s'])
    (hgap : IsGap gap) :
    Group.dropPlural (plural ++ (gap ++ '\x7b' :: body)) = gap ++ '\x7b' :: body := by
  rcases hplural with rfl | rfl
  · apply dropPlural_of_head
    rintro c hc rfl
    rcases head?_gap_append_brace hgap 's' hc with hs | hs <;> revert hs <;> decide
  · rfl

theorem Group.ofText?_of_opened {group : Group} {t : Text} (h : group.Opened t) :
    Group.ofText? t = some group := by
  obtain ⟨hbefore, hspelling, hplural, hgap⟩ := h
  have hbrace : Text.isBlank '\x7b' = false := by decide
  simp only [Group.ofText?, Text.trimStart_gap_append hbefore, trimStart_spelling hspelling,
    Scale.read?_spelling hspelling (head?_notMem_afterCode hplural hgap),
    dropPlural_append hplural hgap, Text.trimStart_gap_append hgap, Text.trimStart_of_head hbrace]

theorem Group.opened_of_ofText? {group : Group} {t : Text} (h : Group.ofText? t = some group) :
    group.Opened t := by
  obtain ⟨before, hbefore, ht⟩ := Text.exists_gap_trimStart t
  unfold Group.ofText? at h
  split at h
  · cases h
  · next scale rest hread =>
      split at h
      · next body hbrace =>
          obtain rfl := Option.some.inj h
          obtain ⟨spelling, hspelling, hstart⟩ := Scale.exists_spelling_of_read? hread
          obtain ⟨gap, hgap, hrest⟩ := Text.exists_gap_trimStart (Group.dropPlural rest)
          obtain ⟨plural, hplural, hdrop⟩ := exists_plural rest
          rw [ht, hstart, hdrop, hrest, hbrace]
          exact Group.Opened.intro hbefore hspelling hplural hgap
      · cases h

/-! ## Clauses cut at closing braces -/

/-- The group has the scale of the listing, and its body lists the same items. -/
def Listing.Matches (listing : Listing) (group : Group) : Prop :=
  group.scale = listing.scale ∧ ItemsWritten listing.items group.body

theorem brace_notMem_gap {gap : Text} (h : IsGap gap) : '\x7d' ∉ gap := h.notMem (by decide)

/-- Before its closing brace a listing is a group that matches it. -/
theorem Listing.Written.exists_group {listing : Listing} {s : Text} (h : listing.Written s) :
    ∃ group piece, listing.Matches group ∧ '\x7d' ∉ piece ∧ s = piece ++ ['\x7d'] ∧
      ∀ gap, IsGap gap → group.Opened (gap ++ piece) := by
  obtain @⟨scale, items, spelling, plural, gap, body, hspelling, hplural, hgap, hbody, hitems⟩ := h
  refine ⟨⟨scale, Text.trim body⟩, spelling ++ (plural ++ (gap ++ '\x7b' :: body)),
    ⟨rfl, (itemsWritten_trim items body).mpr hitems⟩, ?_, by simp,
    fun before hbefore => Group.Opened.intro hbefore hspelling hplural hgap⟩
  have hplural' : '\x7d' ∉ plural := by
    rcases hplural with rfl | rfl <;> decide
  simp [Scale.brace_notMem_spelling hspelling, hplural', brace_notMem_gap hgap, hbody]

/-- Closing braces cut listings into matching groups. -/
theorem ListingsWritten.exists_groups {listings : List Listing} {t : Text}
    (h : ListingsWritten listings t) :
    ∃ groups pieces gap, List.Forall₂ Listing.Matches listings groups ∧
      List.Forall₂ Group.Opened groups pieces ∧ IsGap gap ∧
      t.splitOn '\x7d' = pieces ++ [gap] := by
  induction h with
  | nil hgap =>
      exact ⟨[], [], _, .nil, .nil, hgap, List.splitOn_eq_singleton (brace_notMem_gap hgap)⟩
  | cons hgap hlisting _ ih =>
      obtain ⟨groups, pieces, last, hmatch, hopened, hlast, hsplit⟩ := ih
      obtain ⟨group, piece, hgroup, hbrace, rfl, hopen⟩ := hlisting.exists_group
      refine ⟨group :: groups, _ :: pieces, last, .cons hgroup hmatch, .cons (hopen _ hgap) hopened,
        hlast, ?_⟩
      rw [List.append_assoc, ← List.append_assoc, List.singleton_append,
        List.splitOn_append_cons_self_of_not_mem (by simp [brace_notMem_gap hgap, hbrace]), hsplit]
      rfl

/-- Groups behind which only a gap is left are matched by the listings that they were
cut from. -/
theorem listingsWritten_intercalate {listings : List Listing} {groups : List Group}
    {pieces : List Text} {gap : Text} (hmatch : List.Forall₂ Listing.Matches listings groups)
    (hopened : List.Forall₂ Group.Opened groups pieces) (hgap : IsGap gap)
    (hbrace : ∀ piece ∈ pieces, '\x7d' ∉ piece) :
    ListingsWritten listings (['\x7d'].intercalate (pieces ++ [gap])) := by
  induction hopened generalizing listings with
  | nil =>
      obtain rfl := List.forall₂_nil_right_iff.mp hmatch
      simpa using ListingsWritten.nil hgap
  | @cons group piece groups pieces hopen _ ih =>
      obtain ⟨listing, rest, hlisting, hrest, rfl⟩ := List.forall₂_cons_right_iff.mp hmatch
      obtain ⟨hpiece, hpieces⟩ := List.forall_mem_cons.mp hbrace
      have htail := ih hrest hpieces
      obtain @⟨scale, spelling, plural, before, inner, body, hbefore, hspelling, hplural, hinner⟩ :=
        hopen
      obtain ⟨rfl, hitems⟩ := hlisting
      have hbody : '\x7d' ∉ body := fun hc => hpiece (by simp [hc])
      have hwritten := ListingsWritten.cons hbefore
        (Listing.Written.intro hspelling hplural hinner hbody
          ((itemsWritten_trim listing.items body).mp hitems)) htail
      rw [List.cons_append, List.intercalate_cons_of_ne_nil (by simp)]
      simpa using hwritten

theorem Group.leading_snd_ne_nil {pieces : List Text} (h : pieces ≠ []) :
    (Group.leading pieces).2 ≠ [] := by
  fun_induction Group.leading pieces with
  | case1 piece next rest group hgroup groups left heq ih =>
      simpa [heq] using ih (List.cons_ne_nil next rest)
  | case2 piece next rest hnone => exact List.cons_ne_nil _ _
  | case3 pieces _ => exact h

theorem Group.leading_of_opened {groups : List Group} {pieces : List Text}
    (h : List.Forall₂ Group.Opened groups pieces) (last : Text) :
    Group.leading (pieces ++ [last]) = (groups, [last]) := by
  induction h with
  | nil => rfl
  | @cons group piece groups pieces hopen _ ih =>
      obtain ⟨next, rest, hnext⟩ := List.exists_cons_of_ne_nil
        (List.append_ne_nil_of_right_ne_nil pieces (List.cons_ne_nil last []))
      rw [List.cons_append, hnext, Group.leading, Group.ofText?_of_opened hopen, ← hnext, ih]

/-- The leading groups are cut from the pieces in front of the rest. -/
theorem Group.exists_opened_of_leading (pieces : List Text) :
    ∃ front, List.Forall₂ Group.Opened (Group.leading pieces).1 front ∧
      pieces = front ++ (Group.leading pieces).2 := by
  fun_induction Group.leading pieces with
  | case1 piece next rest group hgroup groups left heq ih =>
      obtain ⟨front, hopened, hsplit⟩ := ih
      simp only [heq] at hopened hsplit
      exact ⟨piece :: front, .cons (Group.opened_of_ofText? hgroup) hopened, by simp [hsplit]⟩
  | case2 piece next rest hnone => exact ⟨[], .nil, rfl⟩
  | case3 pieces _ => exact ⟨[], .nil, rfl⟩

/-! ## Negations -/

theorem dropNegation_append {marker : Text} (h : marker ∈ negations) (t : Text) :
    dropNegation (marker ++ t) = (Text.trimStart t, true) := by
  simp only [negations, List.mem_cons, List.not_mem_nil, or_false] at h
  rcases h with rfl | rfl | rfl <;> rfl

theorem dropNegation_of_head {t : Text}
    (h : ∀ c ∈ t.head?, Text.isBlank c = true ∨ c ∈ Scale.initials) :
    dropNegation t = (t, false) := by
  have hfirst : ∀ marker ∈ negations, ∃ c ∈ marker.head?,
      ¬(Text.isBlank c = true ∨ c ∈ Scale.initials) := by
    intro marker hmarker
    simp only [negations, List.mem_cons, List.not_mem_nil, or_false] at hmarker
    rcases hmarker with rfl | rfl | rfl
    · exact ⟨'!', rfl, by decide⟩
    · exact ⟨'n', rfl, by decide⟩
    · exact ⟨'e', rfl, by decide⟩
  have hnone : negations.findSome? (fun marker => marker.isPrefixOf? t) = none := by
    apply List.findSome?_eq_none_iff.mpr
    intro marker hmarker
    apply Option.eq_none_iff_forall_ne_some.mpr
    intro u hu
    obtain ⟨c, hc, hother⟩ := hfirst marker hmarker
    rw [← List.append_eq_of_isPrefixOf?_eq_some hu] at h
    exact hother (h c (by rw [List.head?_append, Option.mem_def.mp hc]; rfl))
  rw [dropNegation, hnone]

/-- Dropping a negation leaves the text alone or takes a marker and a gap away. -/
theorem dropNegation_cases (t : Text) :
    dropNegation t = (t, false) ∨
      ∃ marker ∈ negations, ∃ gap rest, IsGap gap ∧ t = marker ++ (gap ++ rest) ∧
        dropNegation t = (rest, true) := by
  unfold dropNegation
  split
  · next rest hfound =>
      obtain ⟨marker, hmarker, hprefix⟩ := List.exists_of_findSome?_eq_some hfound
      obtain ⟨gap, hgap, hrest⟩ := Text.exists_gap_trimStart rest
      refine Or.inr ⟨marker, hmarker, gap, Text.trimStart rest, hgap, ?_, rfl⟩
      rw [← hrest]
      exact (List.append_eq_of_isPrefixOf?_eq_some hprefix).symm
  · exact Or.inl rfl

theorem ListingsWritten.gap_append {listings : List Listing} {gap t : Text} (hgap : IsGap gap)
    (h : ListingsWritten listings t) : ListingsWritten listings (gap ++ t) := by
  cases h with
  | nil ht => exact ListingsWritten.nil (Text.isGap_append.mpr ⟨hgap, ht⟩)
  | cons ht hlisting tail =>
      rw [← List.append_assoc]
      exact ListingsWritten.cons (Text.isGap_append.mpr ⟨hgap, ht⟩) hlisting tail

theorem Listing.Written.exists_initial {listing : Listing} {s : Text} (h : listing.Written s) :
    ∃ c ∈ Scale.initials, s.head? = some c := by
  obtain ⟨hspelling⟩ := h
  obtain ⟨c, hc, hhead⟩ := Scale.exists_initial hspelling
  exact ⟨c, hc, by rw [List.head?_append, hhead]; rfl⟩

theorem ListingsWritten.head? {listings : List Listing} {t : Text} (hne : listings ≠ [])
    (h : ListingsWritten listings t) :
    ∀ c ∈ t.head?, Text.isBlank c = true ∨ c ∈ Scale.initials := by
  cases h with
  | nil => exact absurd rfl hne
  | @cons gap listing s listings t hgap hlisting tail =>
      intro c hc
      obtain ⟨d, hd, hhead⟩ := hlisting.exists_initial
      cases gap with
      | nil =>
          rw [List.nil_append, List.head?_append, hhead] at hc
          obtain rfl : d = c := by simpa using hc
          exact Or.inr hd
      | cons e gap =>
          obtain rfl : e = c := by simpa using hc
          exact Or.inl (hgap e List.mem_cons_self)

theorem ListingsWritten.trimStart {listings : List Listing} {t : Text} (hne : listings ≠ [])
    (h : ListingsWritten listings t) : ListingsWritten listings (Text.trimStart t) := by
  cases h with
  | nil => exact absurd rfl hne
  | @cons gap listing s listings t hgap hlisting tail =>
      obtain ⟨c, hc, hhead⟩ := hlisting.exists_initial
      obtain ⟨rest, rfl⟩ := List.head?_eq_some_iff.mp hhead
      rw [Text.trimStart_gap_append hgap, List.cons_append,
        Text.trimStart_of_head (Scale.isBlank_of_mem_initials hc)]
      exact ListingsWritten.cons Text.isGap_nil hlisting tail

/-! ## Whole clauses -/

/-- Listings behind a negation are cut into matching groups with nothing left over. -/
theorem clause_of_listingsWritten {listings : List Listing} {t rest : Text} {negative : Bool}
    (hne : listings ≠ []) (hdrop : dropNegation t = (rest, negative))
    (h : ListingsWritten listings rest) :
    (Clause.ofText t).isComplete = true ∧ (Clause.ofText t).negative = negative ∧
      List.Forall₂ Listing.Matches listings (Clause.ofText t).groups := by
  obtain ⟨groups, pieces, last, hmatch, hopened, hlast, hsplit⟩ := h.exists_groups
  have hclause : Clause.ofText t = ⟨negative, groups, last⟩ := by
    simp only [Clause.ofText, hdrop, hsplit, Group.leading_of_opened hopened,
      List.intercalate_singleton]
  rw [hclause]
  refine ⟨?_, rfl, hmatch⟩
  have hgroups : groups ≠ [] := by
    rintro rfl
    exact hne (List.forall₂_nil_right_iff.mp hmatch)
  simpa [Clause.isComplete, hgroups, IsGap] using hlast

/-- A complete clause is the negation and the listings that its groups match. -/
theorem listingsWritten_of_isComplete {listings : List Listing} {t rest : Text} {negative : Bool}
    (hdrop : dropNegation t = (rest, negative)) (hcomplete : (Clause.ofText t).isComplete = true)
    (hmatch : List.Forall₂ Listing.Matches listings (Clause.ofText t).groups) :
    listings ≠ [] ∧ ListingsWritten listings rest := by
  obtain ⟨front, hopened, hsplit⟩ := Group.exists_opened_of_leading (rest.splitOn '\x7d')
  have hsnd := Group.leading_snd_ne_nil (List.splitOn_ne_nil '\x7d' rest)
  simp only [Clause.ofText, hdrop, Clause.isComplete, Bool.and_eq_true, Bool.not_eq_true',
    List.isEmpty_eq_false_iff, List.all_eq_true] at hcomplete hmatch
  obtain ⟨hgroups, hleft⟩ := hcomplete
  constructor
  · rintro rfl
    exact hgroups (List.forall₂_nil_left_iff.mp hmatch)
  · cases hrest : (Group.leading (rest.splitOn '\x7d')).2 with
    | nil => exact absurd hrest hsnd
    | cons last more =>
        rw [hrest] at hsplit hleft
        cases more with
        | nil =>
            have hrest' : ['\x7d'].intercalate (rest.splitOn '\x7d') = rest :=
              List.intercalate_splitOn '\x7d'
            rw [← hrest', hsplit]
            refine listingsWritten_intercalate hmatch hopened (by simpa [IsGap] using hleft) ?_
            intro piece hpiece
            exact Text.notMem_of_mem_splitOn (hsplit ▸ List.mem_append_left _ hpiece)
        | cons next more =>
            -- A second piece would put the brace in front of it among the blanks.
            have hbrace := hleft '\x7d' (by simp)
            exact absurd hbrace (by decide)

/-- A text is a phrase as written exactly when it is cut into a complete clause whose
groups match the listings. -/
theorem Phrase.written_iff (phrase : Phrase) (t : Text) :
    phrase.Written t ↔
      (Clause.ofText t).isComplete = true ∧ (Clause.ofText t).negative = phrase.negative ∧
        List.Forall₂ Listing.Matches phrase.listings (Clause.ofText t).groups := by
  constructor
  · rintro (⟨hne, h⟩ | ⟨hmarker, hne, h⟩)
    · exact clause_of_listingsWritten hne (dropNegation_of_head (h.head? hne)) h
    · exact clause_of_listingsWritten hne (dropNegation_append hmarker _) (h.trimStart hne)
  · rintro ⟨hcomplete, hnegative, hmatch⟩
    obtain ⟨negative, listings⟩ := phrase
    rcases dropNegation_cases t with hdrop | ⟨marker, hmarker, gap, rest, hgap, ht, hdrop⟩
    · obtain ⟨hne, h⟩ := listingsWritten_of_isComplete hdrop hcomplete hmatch
      obtain rfl : false = negative := by simpa only [Clause.ofText, hdrop] using hnegative
      exact Phrase.Written.plain hne h
    · obtain ⟨hne, h⟩ := listingsWritten_of_isComplete hdrop hcomplete hmatch
      obtain rfl : true = negative := by simpa only [Clause.ofText, hdrop] using hnegative
      rw [ht]
      exact Phrase.Written.negated hmarker hne (h.gap_append hgap)

end Timetable.Expression
