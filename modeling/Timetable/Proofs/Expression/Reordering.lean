import Mathlib.Data.List.Perm.Basic
import Timetable.Proofs.Expression.Layout
import Timetable.Proofs.Expression.Meaning
import Timetable.Proofs.Span.Gathering

/-!
# Clauses in another order

The spans of a group depend on the set of its items alone, and a period with one
constraint for each scale does not depend on the order of these constraints. So a
clause is read for the same period when its groups, each of another scale, change
places and when the items of a group are listed in another order or repeatedly.
-/

namespace Timetable.Expression

/-- The second text is the first one with its groups, each of another scale, in another
order, or with one group listing the same items in any order and number. Gaps do not count
in either case. -/
inductive Rearranged : Text → Text → Prop
  | same (t) : Rearranged t t
  | groups {negative blocks blocks' t t'} (hscales : (blocks.map Block.scale).Nodup)
      (hperm : blocks'.Perm blocks) (h : Layout negative blocks t)
      (h' : Layout negative blocks' t') : Rearranged t t'
  | items {negative before after t t'} {block block' : Block}
      (hscale : block'.scale = block.scale)
      (hitems : ∀ item, item ∈ block'.items ↔ item ∈ block.items)
      (h : Layout negative (before ++ block :: after) t)
      (h' : Layout negative (before ++ block' :: after) t') : Rearranged t t'

variable {scale : Scale}

/-! ## Groups -/

/-- The same items add up to the same spans. -/
theorem Gathered.congr_items {items items' : List (Item Text)} {spans : List Span}
    (h : Gathered scale items spans) (hsame : ∀ item, item ∈ items' ↔ item ∈ items) :
    Gathered scale items' spans := by
  obtain ⟨hvalues, hyear⟩ := h
  rename_i values
  have hall : ∀ item ∈ items', ∃ value, item.Denotes scale value := by
    intro item hitem
    obtain ⟨value, -, hvalue⟩ := Pointwise.exists_right hvalues ((hsame item).mp hitem)
    exact ⟨value, hvalue⟩
  obtain ⟨values', hvalues'⟩ := Pointwise.exists_forall₂ hall
  have hcovers : ∀ n, Span.anyCovers (values'.flatMap (Item.spans scale)) n = true ↔
      Span.anyCovers (values.flatMap (Item.spans scale)) n = true := by
    intro n
    rw [← Item.exists_covers_iff_anyCovers hvalues', ← Item.exists_covers_iff_anyCovers hvalues]
    simp only [hsame]
  have hdistinct : Span.distinctValues (values'.flatMap (Item.spans scale)) =
      Span.distinctValues (values.flatMap (Item.spans scale)) := by
    apply Span.distinctValues_eq (Span.pairwise_distinctValues _)
    simp only [hcovers, Span.mem_distinctValues, implies_true]
  rw [← hdistinct]
  apply Gathered.intro hvalues'
  intro hscale
  rw [Bool.eq_iff_iff, hcovers, hyear hscale]

theorem mem_map_lowercase_iff {items items' : List (Item Text)}
    (hsame : ∀ item, item ∈ items' ↔ item ∈ items) (item : Item Text) :
    item ∈ items'.map Item.lowercase ↔ item ∈ items.map Item.lowercase := by
  simp only [List.mem_map, hsame]

/-- A block yields the constraint that any other one with its scale and its items does. -/
theorem yields_of_same {block block' : Block} {constraint : Scale × List Span}
    (hscale : block'.scale = block.scale)
    (hitems : ∀ item, item ∈ block'.items ↔ item ∈ block.items)
    (h : block.listing.Yields constraint) : block'.listing.Yields constraint := by
  obtain ⟨hconstraint, hgathered⟩ := h
  refine ⟨hconstraint.trans hscale.symm, ?_⟩
  change Gathered block'.scale (block'.items.map Item.lowercase) constraint.2
  rw [hscale]
  exact hgathered.congr_items (mem_map_lowercase_iff hitems)

/-! ## Clauses -/

theorem map_fst_of_yields {blocks : List Block} {constraints : List (Scale × List Span)}
    (h : List.Forall₂ Listing.Yields (blocks.map Block.listing) constraints) :
    constraints.map Prod.fst = blocks.map Block.scale := by
  rw [List.forall₂_map_left_iff] at h
  induction h with
  | nil => rfl
  | cons hyields _ ih => rw [List.map_cons, List.map_cons, ih, hyields.1]; rfl

/-- A clause is read for the same result when it is rearranged. -/
theorem Rearranged.readClause {t t' : Text} {result : Period × Bool} (h : Rearranged t t')
    (hread : (readClause t).outcome = .ok result) : (readClause t').outcome = .ok result := by
  cases h with
  | same => exact hread
  | groups hscales hperm h h' =>
      obtain ⟨hconstraints⟩ := (readClause_eq_ok_iff h.written result).mp hread
      apply (readClause_eq_ok_iff h'.written _).mpr
      obtain ⟨constraints', hconstraints', hperm'⟩ :=
        List.perm_comp_forall₂ (hperm.map Block.listing) hconstraints
      rw [← Period.ofConstraints_perm hperm' (map_fst_of_yields hconstraints ▸ hscales)]
      exact Phrase.Yields.intro hconstraints'
  | items hscale hitems h h' =>
      obtain ⟨hconstraints⟩ := (readClause_eq_ok_iff h.written result).mp hread
      apply (readClause_eq_ok_iff h'.written _).mpr
      rw [List.map_append, List.map_cons] at hconstraints
      obtain ⟨front, constraint, back, rfl, hfront, hblock, hback⟩ :=
        Pointwise.exists_append_cons hconstraints
      apply Phrase.Yields.intro
      rw [List.map_append, List.map_cons]
      exact List.rel_append hfront (.cons (yields_of_same hscale hitems hblock) hback)

/-- Rearranging a clause adds no comma. -/
theorem Rearranged.comma_notMem {t t' : Text} (h : Rearranged t t') (ht : ',' ∉ t) : ',' ∉ t' := by
  cases h with
  | same => exact ht
  | groups hscales hperm h h' =>
      rw [h.comma_mem_iff] at ht
      simpa only [h'.comma_mem_iff, hperm.mem_iff] using ht
  | items hscale hitems h h' =>
      rw [h.comma_mem_iff] at ht
      rw [h'.comma_mem_iff]
      rintro ⟨other, hother, item, hitem, hcomma⟩
      apply ht
      rcases List.mem_append.mp hother with hbefore | hafter
      · exact ⟨other, List.mem_append_left _ hbefore, item, hitem, hcomma⟩
      · rcases List.mem_cons.mp hafter with rfl | hafter
        · exact ⟨_, List.mem_append_right _ List.mem_cons_self, item, (hitems item).mp hitem,
            hcomma⟩
        · exact ⟨other, List.mem_append_right _ (List.mem_cons_of_mem _ hafter), item, hitem,
            hcomma⟩

/-- There is nothing to rearrange in the empty text. -/
theorem Rearranged.eq_nil {t : Text} (h : Rearranged [] t) : t = [] := by
  cases h with
  | same => rfl
  | groups _ _ h => exact absurd h.written (not_written_nil _)
  | items _ _ h => exact absurd h.written (not_written_nil _)

end Timetable.Expression
