import Mathlib.Data.Set.Card
import Timetable.Proofs.Expression.Meaning

/-!
# What reading reports

Reading an expression reports every interval of every listing with the numbers that its
ends stand for, once more if it wraps around, and behind the items of a listing how many
values they cover. The reports come in the order of the text, and they do not depend on
which of the listings count in the end.
-/

namespace Timetable

/-- As many values are in a list without repeats as the list is long. -/
theorem ncard_of_nodup {α : Type} {s : Set α} {values : List α} (hnodup : values.Nodup)
    (h : ∀ v, v ∈ s ↔ v ∈ values) : s.ncard = values.length := by
  classical
  have hs : s = values.toFinset := Set.ext fun v => (h v).trans (by simp)
  rw [hs, Set.ncard_coe_finset, List.toFinset_card_of_nodup hnodup]

namespace Expression

open Timetable.Pointwise (Concat)

variable {scale : Scale}

/-- What an item reports: the numbers that the ends of an interval stand for, and at once that
it wraps around if its lower end lies above its upper one. -/
inductive Item.Reports (scale : Scale) : Item Text → List Event → Prop
  | single {t} : Reports scale (single t) []
  | ascending {s t m n} (hm : Expression.Denotes scale s m) (hn : Expression.Denotes scale t n)
      (hle : m ≤ n) : Reports scale (interval s t) [.interval scale m n]
  | wrapped {s t m n} (hm : Expression.Denotes scale s m) (hn : Expression.Denotes scale t n)
      (hlt : n < m) :
      Reports scale (interval s t) [.interval scale m n, .wrapped scale m n]

/-- What a listing reports: its items one by one, and then how many values it covers. -/
inductive Listing.Reports (listing : Listing) : List Event → Prop
  | intro {events} (hitems : Concat (Item.Reports listing.scale) listing.items events) :
      Reports listing (events ++ [.gathered listing.scale {x : ℤ | listing.Covers x}.ncard])

/-- A phrase reports its listings one by one. -/
def Phrase.Reports (phrase : Phrase) : List Event → Prop := Concat Listing.Reports phrase.listings

/-! ## Items -/

/-- An item that is read reports its ends. -/
theorem Item.reports_of_read {item : Item Text} {values : Item Nat}
    (h : (item.read scale).outcome = .ok values) :
    item.Reports scale (item.read scale).events := by
  have hdenotes := (Item.read_eq_ok_iff item values).mp h
  cases hdenotes with
  | single ht =>
      have hread := (readValue_eq_ok_iff scale _ _).mpr ht
      rw [Item.read, Logged.events_bind hread]
      exact Item.Reports.single
  | @interval s t m n hm hn =>
      have hlow := (readValue_eq_ok_iff scale s m).mpr hm
      have hhigh := (readValue_eq_ok_iff scale t n).mpr hn
      rw [Item.read, Logged.events_bind hlow, Logged.events_bind hhigh,
        Logged.events_bind (Logged.outcome_report _)]
      by_cases hlt : n < m
      · rw [if_pos hlt]
        exact Item.Reports.wrapped hm hn hlt
      · rw [if_neg hlt]
        exact Item.Reports.ascending hm hn (Nat.le_of_not_lt hlt)

/-! ## Listings -/

/-- The items of a listing cover as many values as are gathered from them. -/
theorem ncard_covers {items : List (Item Text)} {values : List (Item Nat)}
    (h : List.Forall₂ (Item.Denotes scale) items values) :
    {x : ℤ | Listing.Covers ⟨scale, items⟩ x}.ncard =
      (Span.distinctValues (values.flatMap (Item.spans scale))).length := by
  have hnodup := (Span.pairwise_distinctValues (values.flatMap (Item.spans scale))).nodup
  have hcovers := Item.exists_covers_iff_anyCovers h
  rw [ncard_of_nodup (hnodup.map (Nat.cast_injective (R := ℤ))), List.length_map]
  intro x
  rw [List.mem_map]
  constructor
  · intro hx
    obtain ⟨span, -, hstart, -⟩ := (Item.exists_covers_iff h x).mp hx
    obtain ⟨n, rfl⟩ := Int.eq_ofNat_of_zero_le (Int.le_trans (Int.natCast_nonneg _) hstart)
    exact ⟨n, (Span.mem_distinctValues _ n).mpr ((hcovers n).mp hx), rfl⟩
  · rintro ⟨n, hn, rfl⟩
    exact (hcovers n).mpr ((Span.mem_distinctValues _ n).mp hn)

/-- A body that is read reports the items that it lists. -/
theorem reports_of_readSpans {items : List (Item Text)} {body : Text} {spans : List Span}
    (hitems : ItemsWritten items body) (h : (readSpans scale body).outcome = .ok spans) :
    Listing.Reports ⟨scale, items⟩ (readSpans scale body).events := by
  obtain ⟨values, hread, hrest⟩ := (Logged.outcome_bind_eq_ok_iff _ _ _).mp h
  have htokens := (Logged.outcome_traverse_eq_ok_iff _ _ _).mp hread
  have hdenotes : List.Forall₂ (Item.Denotes scale) items values := by
    rw [← hitems.map_ofToken_tokens]
    apply List.forall₂_map_left_iff.mpr
    exact htokens.imp fun token value hvalue => (Item.read_eq_ok_iff _ _).mp hvalue
  have hreports : Concat (Item.Reports scale) items
      ((tokens body).flatMap fun token => ((Item.ofToken token).read scale).events) := by
    apply Pointwise.concat_of_forall₂
    rw [← hitems.map_ofToken_tokens]
    apply List.forall₂_map_left_iff.mpr
    apply List.forall₂_same.mpr
    intro token htoken
    obtain ⟨value, -, hvalue⟩ := Pointwise.exists_right htokens htoken
    exact Item.reports_of_read hvalue
  have hlast : (readSpans scale body).events =
      ((tokens body).flatMap fun token => ((Item.ofToken token).read scale).events) ++
        [.gathered scale {x : ℤ | Listing.Covers ⟨scale, items⟩ x}.ncard] := by
    rw [readSpans, Logged.events_bind hread, Logged.events_traverse hread, ncard_covers hdenotes,
      Logged.events_bind (Logged.outcome_report _)]
    split <;> rfl
  rw [hlast]
  exact Listing.Reports.intro hreports

/-! ## Clauses and expressions -/

/-- A clause that is read reports the phrase that it is written as. -/
theorem reports_of_readClause {phrase : Phrase} {t : Text} {result : Period × Bool}
    (hphrase : phrase.Written (Text.lowercase (Text.trim t)))
    (h : (readClause t).outcome = .ok result) : phrase.Reports (readClause t).events := by
  obtain ⟨hcomplete, -, hmatch⟩ := (Phrase.written_iff phrase _).mp hphrase
  obtain ⟨constraints, hread, -⟩ := (Logged.outcome_bind_eq_ok_iff _ _ _).mp h
  have hgroups := (Logged.outcome_traverse_eq_ok_iff _ _ _).mp hread
  have hevents : (readClause t).events =
      (Clause.ofText (Text.lowercase (Text.trim t))).groups.flatMap fun group =>
        (readSpans group.scale group.body).events := by
    rw [readClause, Logged.events_bind hread, Logged.events_traverse hread, if_pos hcomplete,
      Logged.events_pure, List.append_nil]
    simp only [Logged.events_bind_pure]
  rw [hevents]
  apply Pointwise.concat_of_forall₂
  apply Pointwise.imp_of_mem hmatch
  rintro listing - group hgroup ⟨hscale, hitems⟩
  obtain ⟨constraint, -, hconstraint⟩ := Pointwise.exists_right hgroups hgroup
  obtain ⟨spans, hspans, -⟩ := (Logged.outcome_bind_eq_ok_iff _ _ _).mp hconstraint
  rw [hscale] at hspans ⊢
  exact reports_of_readSpans hitems hspans

/-- An expression that is read reports the phrases that it is written as, one by one. -/
theorem reports_of_read {phrases : List Phrase} {t : Text} {periods : List Period × List Period}
    (hphrases : Written phrases t) (h : (read t).outcome = .ok periods) :
    Concat Phrase.Reports phrases (read t).events := by
  obtain ⟨results, hread, -⟩ := (Logged.outcome_bind_eq_ok_iff _ _ _).mp h
  have hclauses := (Logged.outcome_traverse_eq_ok_iff _ _ _).mp hread
  rw [read, Logged.events_bind hread, Logged.events_traverse hread, Logged.events_pure,
    List.append_nil]
  apply Pointwise.concat_of_forall₂
  apply Pointwise.imp_of_mem ((written_iff phrases t).mp hphrases).flip
  rintro phrase - piece hpiece hphrase
  obtain ⟨result, -, hresult⟩ := Pointwise.exists_right hclauses hpiece
  exact reports_of_readClause hphrase hresult

end Expression

end Timetable
