import Timetable.Proofs.Expression.Grammar

/-!
# What a written interval adds

The spans of a body cover what its items cover, each for itself. So an interval
between two decimal numbers adds just the values between them, whatever else the
body lists, and takes none away. A lower end of hour 0 is read for the end of the
day and makes the interval wrap around to the same values, unless its upper end is
the end of the day as well: the whole day written as `0-24` adds nothing.
-/

namespace Timetable.Expression

variable {scale : Scale}

/-- Gathered spans cover the values that one of the items covers. -/
theorem Gathered.anyCovers_iff_exists {items : List (Item Text)} {spans : List Span}
    (h : Gathered scale items spans) (x : Nat) :
    Span.anyCovers spans x = true ↔ ∃ item ∈ items, item.Covers scale x := by
  obtain ⟨hvalues, -⟩ := h
  rw [Span.anyCovers_ofAscending, Span.mem_distinctValues, Span.anyCovers_iff,
    Item.exists_covers_iff hvalues]
  simp only [Span.holds_natCast]

namespace Item

variable {low high : Text}

theorem denotes_numerals (hlow : Text.isNumeral low = true) (hhigh : Text.isNumeral high = true)
    (hle : Text.toNat low ≤ Text.toNat high) (hlowest : scale.lowest ≤ Text.toNat low)
    (hhighest : Text.toNat high ≤ scale.highest) :
    (interval low high).Denotes scale
      (.interval (scale.reread (Text.toNat low)) (scale.reread (Text.toNat high))) := by
  apply Denotes.interval
  · exact (denotes_numeral_iff hlow _).mpr ⟨⟨hlowest, Nat.le_trans hle hhighest⟩, rfl⟩
  · exact (denotes_numeral_iff hhigh _).mpr ⟨⟨Nat.le_trans hlowest hle, hhighest⟩, rfl⟩

/-- The spans of an interval from `m` to `n` hold what lies between the two, except that
those from hour 0 to hour 24 hold nothing. -/
theorem holds_spans_reread_iff {m n : Nat} (hle : m ≤ n) (hhighest : n ≤ scale.highest) (x : Int) :
    (∃ span ∈ spans scale (interval (scale.reread m) (scale.reread n)), span.Holds x) ↔
      m ≤ x ∧ scale.boundary.Reaches n x ∧ ¬(scale = .hour ∧ m = 0 ∧ n = 24) := by
  by_cases hmidnight : scale = .hour ∧ m = 0
  · obtain ⟨rfl, rfl⟩ := hmidnight
    have hstart : Scale.hour.reread 0 = 24 := rfl
    by_cases hday : n = 0 ∨ n = 24
    · -- Both ends are read for the end of the day, and no hour lies between them.
      have hstop : Scale.hour.reread n = 24 := by
        rcases hday with rfl | rfl <;> rfl
      simp only [hstart, hstop, spans_of_le (Nat.le_refl 24), List.mem_singleton, exists_eq_left,
        Span.Holds, Scale.boundary, Boundary.Reaches, true_and]
      omega
    · have hstop : Scale.hour.reread n = n := if_neg fun hzero => hday (Or.inl hzero.2)
      have hlt : n < 24 := Nat.lt_of_le_of_ne hhighest fun h => hday (Or.inr h)
      have hlast : Scale.hour.highest = 24 := rfl
      simp only [hstart, hstop, spans_of_lt hlt, List.mem_cons, List.not_mem_nil, or_false,
        exists_eq_or_imp, exists_eq_left, Span.Holds, Scale.boundary, Scale.lowest, hlast,
        Boundary.Reaches]
      omega
  · have hstart : scale.reread m = m := if_neg hmidnight
    have hstop : scale.reread n = n := by
      refine if_neg fun hzero => hmidnight ⟨hzero.1, ?_⟩
      omega
    have hkeep : ¬(scale = .hour ∧ m = 0 ∧ n = 24) := fun h => hmidnight ⟨h.1, h.2.1⟩
    simp only [hstart, hstop, spans_of_le hle, List.mem_singleton, exists_eq_left, Span.Holds,
      hkeep, not_false_eq_true, and_true]

/-- The interval covers what lies between its two numbers, unless these are hour 0 and
hour 24. -/
theorem covers_numerals_iff (hlow : Text.isNumeral low = true)
    (hhigh : Text.isNumeral high = true) (hle : Text.toNat low ≤ Text.toNat high)
    (hlowest : scale.lowest ≤ Text.toNat low) (hhighest : Text.toNat high ≤ scale.highest)
    (x : Int) :
    (interval low high).Covers scale x ↔
      Text.toNat low ≤ x ∧ scale.boundary.Reaches (Text.toNat high) x ∧
        ¬(scale = .hour ∧ Text.toNat low = 0 ∧ Text.toNat high = 24) := by
  rw [(denotes_numerals hlow hhigh hle hlowest hhighest).covers_iff,
    holds_spans_reread_iff hle hhighest]

theorem not_wraps_numerals (hlow : Text.isNumeral low = true)
    (hhigh : Text.isNumeral high = true) (hle : Text.toNat low ≤ Text.toNat high) :
    ¬(interval low high).Wraps .year := by
  rintro ⟨hm, hn, hlt⟩
  obtain ⟨-, rfl⟩ := (denotes_numeral_iff hlow _).mp hm
  obtain ⟨-, rfl⟩ := (denotes_numeral_iff hhigh _).mp hn
  have hyear : ∀ n, Scale.year.reread n = n := fun n => rfl
  rw [hyear, hyear] at hlt
  exact Nat.not_lt_of_le hle hlt

end Item

/-- The items of a body whose tokens have one more among them. -/
theorem mem_map_ofToken_insert {before after : List Text} {low high : Text}
    (hlow : Text.isNumeral low = true) (hhigh : Text.isNumeral high = true) (item : Item Text) :
    item ∈ (before ++ (low ++ '-' :: high) :: after).map Item.ofToken ↔
      item = .interval low high ∨ item ∈ (before ++ after).map Item.ofToken := by
  have hpart : ∀ {t : Text}, Text.isNumeral t = true → IsPart t := fun ht =>
    isPart_of_digits ((isNumeral_iff _).mp ht).1 ((isNumeral_iff _).mp ht).2
  have hitem : Item.ofToken (low ++ '-' :: high) = .interval low high :=
    @Item.ofToken_token (.interval low high) ⟨hpart hlow, hpart hhigh⟩
  simp only [List.map_append, List.map_cons, List.mem_append, List.mem_cons, hitem]
  exact or_left_comm

/-- An interval between two decimal numbers of the domain, the lower one first, may be added
anywhere among the tokens of a body that is read: the body is still read unless it now has
years up to the last one of their domain, and its spans cover what they covered before and
the values of the interval, all of them but for hours from 0 to 24. -/
theorem readSpans_insert_interval {before after : List Text} {low high body longer : Text}
    {spans : List Span} (hlow : Text.isNumeral low = true) (hhigh : Text.isNumeral high = true)
    (hle : Text.toNat low ≤ Text.toNat high) (hlowest : scale.lowest ≤ Text.toNat low)
    (hhighest : Text.toNat high ≤ scale.highest) (hbody : tokens body = before ++ after)
    (hlonger : tokens longer = before ++ (low ++ '-' :: high) :: after)
    (hread : (readSpans scale body).outcome = .ok spans) :
    ((∃ more, (readSpans scale longer).outcome = .ok more) ↔
      ¬(scale = .year ∧ Text.toNat high = 9999)) ∧
    ∀ more, (readSpans scale longer).outcome = .ok more → ∀ x : Nat,
      Span.anyCovers more x = true ↔ Span.anyCovers spans x = true ∨
        (Text.toNat low ≤ x ∧ scale.boundary.Reaches (Text.toNat high) x ∧
          ¬(scale = .hour ∧ Text.toNat low = 0 ∧ Text.toNat high = 24)) := by
  have hcovers := Item.covers_numerals_iff hlow hhigh hle hlowest hhighest
  have hmem := @mem_map_ofToken_insert before after low high hlow hhigh
  rw [readSpans_eq_ok_iff_gathered, hbody] at hread
  simp only [readSpans_eq_ok_iff_gathered, hlonger]
  constructor
  · rw [Gathered.exists_iff_legal]
    have hlegal := (Gathered.exists_iff_legal scale _).mp ⟨spans, hread⟩
    constructor
    · rintro hlonger ⟨rfl, hend⟩
      apply (hlonger.years rfl).1
      refine ⟨_, (hmem _).mpr (Or.inl rfl), (hcovers 9999).mpr ⟨?_, ?_, by simp⟩⟩
      · omega
      · rw [hend]
        exact Int.le_refl 9999
    · intro hend
      constructor
      · intro item hitem
        rcases (hmem item).mp hitem with rfl | hitem
        · exact (Item.legal_iff_exists_denotes _).mpr
            ⟨_, Item.denotes_numerals hlow hhigh hle hlowest hhighest⟩
        · exact hlegal.values item hitem
      · rintro rfl
        obtain ⟨hlast, hwraps⟩ := hlegal.years rfl
        constructor
        · rintro ⟨item, hitem, hitemCovers⟩
          rcases (hmem item).mp hitem with rfl | hitem
          · have hreaches : (9999 : Int) ≤ Text.toNat high := ((hcovers 9999).mp hitemCovers).2.1
            have hhigh : Text.toNat high ≤ 9999 := hhighest
            exact hend ⟨rfl, by omega⟩
          · exact hlast ⟨item, hitem, hitemCovers⟩
        · intro item hitem
          rcases (hmem item).mp hitem with rfl | hitem
          · exact Item.not_wraps_numerals hlow hhigh hle
          · exact hwraps item hitem
  · intro more hmore x
    rw [hmore.anyCovers_iff_exists, hread.anyCovers_iff_exists, ← Int.ofNat_le, ← hcovers]
    simp only [hmem, or_and_right, exists_or, exists_eq_left]
    exact or_comm

/-- Early hours, which are read as a wrapped interval, between a night and a qualified hour. -/
theorem readSpans_insert_early_hours :
    tokens "22-2 8am".toList = ["22-2".toList] ++ ["8am".toList] ∧
    tokens "22-2 00 - 6 8am".toList =
      ["22-2".toList] ++ ("00".toList ++ '-' :: "6".toList) :: ["8am".toList] ∧
    (readSpans .hour "22-2 8am".toList).outcome =
      .ok [⟨0, 2, .exclusive⟩, ⟨8, 9, .exclusive⟩, ⟨22, 24, .exclusive⟩] ∧
    ((∃ more, (readSpans .hour "22-2 00 - 6 8am".toList).outcome = .ok more) ↔
      ¬(Scale.hour = .year ∧ Text.toNat "6".toList = 9999)) ∧
    ∀ more, (readSpans .hour "22-2 00 - 6 8am".toList).outcome = .ok more → ∀ x : Nat,
      Span.anyCovers more x = true ↔
        Span.anyCovers [⟨0, 2, .exclusive⟩, ⟨8, 9, .exclusive⟩, ⟨22, 24, .exclusive⟩] x = true ∨
          (Text.toNat "00".toList ≤ x ∧ Scale.hour.boundary.Reaches (Text.toNat "6".toList) x ∧
            ¬(Scale.hour = .hour ∧ Text.toNat "00".toList = 0 ∧ Text.toNat "6".toList = 24)) := by
  have hbody : tokens "22-2 8am".toList = ["22-2".toList] ++ ["8am".toList] := by
    decide +kernel
  have hlonger : tokens "22-2 00 - 6 8am".toList =
      ["22-2".toList] ++ ("00".toList ++ '-' :: "6".toList) :: ["8am".toList] := by
    decide +kernel
  have hread : (readSpans .hour "22-2 8am".toList).outcome =
      .ok [⟨0, 2, .exclusive⟩, ⟨8, 9, .exclusive⟩, ⟨22, 24, .exclusive⟩] := by
    decide +kernel
  exact ⟨hbody, hlonger, hread, readSpans_insert_interval (by decide) (by decide) (by decide)
    (by decide) (by decide) hbody hlonger hread⟩

/-- Hours from 0 to 24 would be the whole day by their numbers, but both ends are read for the
end of the day and nothing is added, not even noon. -/
theorem not_forall_interval_covers :
    ¬∀ (scale : Scale) (before after : List Text) (low high body longer : Text)
      (spans more : List Span), Text.isNumeral low = true → Text.isNumeral high = true →
      Text.toNat low ≤ Text.toNat high → scale.lowest ≤ Text.toNat low →
      Text.toNat high ≤ scale.highest → tokens body = before ++ after →
      tokens longer = before ++ (low ++ '-' :: high) :: after →
      (readSpans scale body).outcome = .ok spans →
      (readSpans scale longer).outcome = .ok more → ∀ x : Nat,
        Span.anyCovers more x = true ↔ Span.anyCovers spans x = true ∨
          (Text.toNat low ≤ x ∧ scale.boundary.Reaches (Text.toNat high) x) := by
  intro h
  have hread : (readSpans .hour "0-24".toList).outcome = .ok [] := by
    decide +kernel
  have hreaches : Scale.hour.boundary.Reaches 24 12 := show (12 : Int) < 24 by decide
  have hnoon := (h .hour [] [] "0".toList "24".toList [] "0-24".toList [] [] (by decide)
    (by decide) (by decide) (by decide) (by decide) rfl (by decide +kernel) rfl hread 12).mpr
      (Or.inr ⟨by decide, hreaches⟩)
  cases hnoon

end Timetable.Expression
