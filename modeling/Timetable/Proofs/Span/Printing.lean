import Timetable.Proofs.Expression.Reading
import Timetable.Proofs.Span.Gathering
import Timetable.Proofs.Text.Printed

/-!
# Reading printed spans

A span is printed as an item of decimal digits. Read as such, most spans keep
their values. An hour 0 in front is taken for the end of the day, though: the
first hour and the whole day then lose their values, while the upper end of a
longer span wraps around and brings them back. Spans past the last value of the
domain that are not single have an end that is not read at all. Of the spans that
are gathered for a scale only four kinds are misread in this way.
-/

namespace Timetable

open Expression (Denotes Item ItemsWritten Gathered)
open Text (EndsWord)

namespace Span

/-- The item that a span is printed as. -/
def item (span : Span) : Item Text :=
  if span.isSingle then .single (Text.ofNat span.start)
  else .interval (Text.ofNat span.start) (Text.ofNat span.stop)

/-- The text of the span is read for the values of the span. -/
def IsLegible (scale : Scale) (span : Span) : Prop :=
  (span.isSingle = true ∨ span.stop ≤ scale.highest) ∧
    (scale = .hour → span.start = 0 → span.stop ≠ 1 ∧ span.stop ≠ 24)

instance (scale : Scale) (span : Span) : Decidable (span.IsLegible scale) :=
  inferInstanceAs (Decidable (_ ∧ _))

/-- The gathered spans whose text is not read for them: of the hours the first one, the whole
day and what ends past hour 24 without being that hour, and of minutes and seconds what ends
past value 60 without being that value. -/
inductive IsMisread : Scale → Span → Prop
  | firstHour : IsMisread .hour ⟨0, 1, .exclusive⟩
  | wholeDay : IsMisread .hour ⟨0, 24, .exclusive⟩
  | pastDay {start} (hstart : start ≠ 24) : IsMisread .hour ⟨start, 25, .exclusive⟩
  | pastHour {scale start} (hscale : scale = .minute ∨ scale = .second) (hstart : start ≠ 60) :
      IsMisread scale ⟨start, 61, .exclusive⟩

variable {scale : Scale} {span : Span} {spans gathered : List Span}

theorem token_item (span : Span) : span.item.token = span.text := by
  unfold item text
  split <;> rfl

/-! ## Digits -/

theorem isNumeral_ofNat (n : Nat) : Text.isNumeral (Text.ofNat n) = true :=
  (Expression.isNumeral_iff _).mpr
    ⟨Nat.toDigits_ne_nil, fun _ hc => Nat.isDigit_of_mem_toDigits (by decide) (by decide) hc⟩

theorem isPlain_item (span : Span) : span.item.IsPlain := by
  have hpart : ∀ n, Expression.IsPart (Text.ofNat n) := by
    intro n
    obtain ⟨hne, hall⟩ := (Expression.isNumeral_iff _).mp (isNumeral_ofNat n)
    exact Expression.isPart_of_digits hne hall
  unfold item
  split
  · exact hpart span.start
  · exact ⟨hpart span.start, hpart span.stop⟩

/-! ## Texts -/

theorem mem_text {span : Span} {c : Char} (h : c ∈ span.text) :
    c.isDigit = true ∨ c = '-' := by
  have hdigit : ∀ {n}, c ∈ Text.ofNat n → c.isDigit = true := fun hc =>
    Nat.isDigit_of_mem_toDigits (by decide) (by decide) hc
  unfold text at h
  split at h
  · exact Or.inl (hdigit h)
  · rw [List.mem_append, List.mem_cons] at h
    rcases h with h | h | h
    · exact Or.inl (hdigit h)
    · exact Or.inr h
    · exact Or.inl (hdigit h)

theorem written_text (span : Span) : span.item.Written span.text := by
  rw [← token_item]
  exact (isPlain_item span).written_token

/-- Texts of spans with a blank in front of each list the items of the spans. -/
theorem itemsWritten_flatMap (spans : List Span) :
    ItemsWritten (spans.map item) ((spans.map text).flatMap (fun t => [' '] ++ t) ++ [' ']) := by
  induction spans with
  | nil => exact ItemsWritten.nil Text.isGap_blank
  | cons span rest ih =>
      have hend : EndsWord ((rest.map text).flatMap (fun t => [' '] ++ t) ++ [' ']) := by
        cases rest with
        | nil => exact Text.isGap_blank.endsWord
        | cons next rest => exact Text.endsWord_cons.mpr (by decide)
      simp only [List.map_cons, List.flatMap_cons, List.append_assoc]
      exact ItemsWritten.cons Text.isGap_blank span.written_text hend ih

theorem itemsWritten_texts (spans : List Span) :
    ItemsWritten (spans.map item) ([' '] ++ ([' '].intercalate (spans.map text) ++ [' '])) := by
  cases spans with
  | nil => exact ItemsWritten.nil (Text.isGap_append.mpr ⟨Text.isGap_blank, Text.isGap_blank⟩)
  | cons span rest =>
      have hwritten := itemsWritten_flatMap (span :: rest)
      simp only [List.map_cons, List.flatMap_cons, List.append_assoc] at hwritten
      simp only [List.map_cons, Text.intercalate_cons, List.append_assoc]
      exact hwritten

/-! ## Values -/

/-- The digits of a number stand for it within the domain, and hour 0 for the end of the
day. -/
theorem denotes_ofNat_iff (scale : Scale) (n m : Nat) :
    Denotes scale (Text.ofNat n) m ↔
      (scale.lowest ≤ n ∧ n ≤ scale.highest) ∧ m = scale.reread n := by
  rw [Expression.denotes_numeral_iff (isNumeral_ofNat n), Text.toNat_ofNat]

/-! ## Items -/

theorem denotes_item_of_isSingle (h : span.isSingle = true) (values : Item Nat) :
    span.item.Denotes scale values ↔
      (scale.lowest ≤ span.start ∧ span.start ≤ scale.highest) ∧
        values = .single (scale.reread span.start) := by
  rw [item, if_pos h]
  constructor
  · rintro (hn | _)
    obtain ⟨hdomain, rfl⟩ := (denotes_ofNat_iff scale _ _).mp hn
    exact ⟨hdomain, rfl⟩
  · rintro ⟨hdomain, rfl⟩
    exact Item.Denotes.single ((denotes_ofNat_iff scale _ _).mpr ⟨hdomain, rfl⟩)

theorem denotes_item_of_not_isSingle (h : ¬span.isSingle = true) (values : Item Nat) :
    span.item.Denotes scale values ↔
      (scale.lowest ≤ span.start ∧ span.start ≤ scale.highest) ∧
        (scale.lowest ≤ span.stop ∧ span.stop ≤ scale.highest) ∧
          values = .interval (scale.reread span.start) (scale.reread span.stop) := by
  rw [item, if_neg h]
  constructor
  · rintro (_ | ⟨hm, hn⟩)
    obtain ⟨hstart, rfl⟩ := (denotes_ofNat_iff scale _ _).mp hm
    obtain ⟨hstop, rfl⟩ := (denotes_ofNat_iff scale _ _).mp hn
    exact ⟨hstart, hstop, rfl⟩
  · rintro ⟨hstart, hstop, rfl⟩
    exact Item.Denotes.interval ((denotes_ofNat_iff scale _ _).mpr ⟨hstart, rfl⟩)
      ((denotes_ofNat_iff scale _ _).mpr ⟨hstop, rfl⟩)

theorem isSingle_iff (span : Span) : span.isSingle = true ↔ span.limit = span.start + 1 := by
  rw [isSingle, beq_iff_eq, eq_comm]

theorem single_start_eq (h : span.isSingle = true) : single span.start span.boundary = span := by
  have hlimit := (isSingle_iff span).mp h
  obtain ⟨start, stop, boundary⟩ := span
  cases boundary with
  | inclusive =>
      obtain rfl : stop = start := Nat.succ.inj hlimit
      rfl
  | exclusive =>
      obtain rfl : stop = start + 1 := hlimit
      rfl

theorem start_le_stop (h : span.start < span.limit) : span.start ≤ span.stop := by
  obtain ⟨start, stop, boundary⟩ := span
  cases boundary with
  | inclusive => exact Nat.le_of_lt_succ h
  | exclusive => exact Nat.le_of_lt h

/-- A span that does not start at hour 0 is read for itself if it is read at all. -/
theorem spans_of_denotes_item (hboundary : span.boundary = scale.boundary)
    (hpos : span.start < span.limit) (hstart : ¬(scale = .hour ∧ span.start = 0))
    {values : Item Nat} (h : span.item.Denotes scale values) :
    values.spans scale = [span] := by
  have hreread : scale.reread span.start = span.start := if_neg hstart
  by_cases hsingle : span.isSingle = true
  · obtain ⟨-, rfl⟩ := (denotes_item_of_isSingle hsingle values).mp h
    rw [hreread, Item.spans, ← hboundary, single_start_eq hsingle]
  · obtain ⟨-, -, rfl⟩ := (denotes_item_of_not_isSingle hsingle values).mp h
    have hle := start_le_stop hpos
    have hstop : scale.reread span.stop = span.stop := by
      refine if_neg fun hzero => hstart ⟨hzero.1, ?_⟩
      omega
    rw [hreread, hstop, Item.spans_of_le hle, ← hboundary]

/-- A span of hours from 0 on is read for none of its values if it is the first hour or the
whole day, and for its own otherwise. -/
theorem anyCovers_fromMidnight_iff {stop : Nat} (hpos : 0 < stop) {values : Item Nat}
    (h : (Span.mk 0 stop .exclusive).item.Denotes .hour values) (v : Nat) :
    anyCovers (values.spans .hour) v = true ↔
      if stop = 1 ∨ stop = 24 then v = 24 ∧ stop = 1 else v < stop := by
  by_cases hone : stop = 1
  · subst hone
    obtain ⟨-, rfl⟩ := (denotes_item_of_isSingle rfl values).mp h
    simp [Item.spans, Scale.reread, covers_single]
  · have hsingle : ¬(Span.mk 0 stop .exclusive).isSingle = true := by
      rw [isSingle_iff]
      exact hone
    obtain ⟨-, ⟨-, hhigh⟩, rfl⟩ := (denotes_item_of_not_isSingle hsingle values).mp h
    have hstop : Scale.hour.reread stop = stop := if_neg fun hzero => Nat.ne_of_gt hpos hzero.2
    have hstart : Scale.hour.reread 0 = 24 := rfl
    simp only [hstart, hstop]
    by_cases hday : stop = 24
    · subst hday
      simp [Item.spans, covers_iff, limit, Scale.boundary]
    · have hlt : stop < 24 := Nat.lt_of_le_of_ne hhigh hday
      rw [Item.spans_of_lt hlt]
      simp [hone, hday, covers_iff, limit, Scale.boundary, Scale.lowest, Scale.highest]

/-- What a printed span is read for, if it is read at all: its own values if it is legible,
and not for the hour 0 that it starts at otherwise. -/
theorem anyCovers_of_denotes (hboundary : span.boundary = scale.boundary)
    (hpos : span.start < span.limit) {values : Item Nat}
    (h : span.item.Denotes scale values) :
    (span.IsLegible scale ∧ ∀ v, anyCovers (values.spans scale) v = span.covers v) ∨
      (¬span.IsLegible scale ∧ scale = .hour ∧ span.start = 0 ∧
        anyCovers (values.spans scale) 0 = false) := by
  have hend : span.isSingle = true ∨ span.stop ≤ scale.highest := by
    by_cases hsingle : span.isSingle = true
    · exact Or.inl hsingle
    · exact Or.inr ((denotes_item_of_not_isSingle hsingle values).mp h).2.1.2
  by_cases hstart : scale = .hour ∧ span.start = 0
  · obtain ⟨start, stop, boundary⟩ := span
    obtain ⟨rfl, hzero⟩ := hstart
    obtain rfl : start = 0 := hzero
    obtain rfl : boundary = .exclusive := hboundary
    have hstop : 0 < stop := hpos
    have hread := anyCovers_fromMidnight_iff hstop h
    by_cases hlost : stop = 1 ∨ stop = 24
    · refine Or.inr ⟨?_, rfl, rfl, ?_⟩
      · rintro ⟨-, hlegible⟩
        have hneither := hlegible rfl rfl
        exact hlost.elim hneither.1 hneither.2
      · rw [← Bool.not_eq_true, hread, if_pos hlost]
        exact fun hday => absurd hday.1 (by decide)
    · refine Or.inl ⟨⟨hend, fun _ _ => not_or.mp hlost⟩, fun v => ?_⟩
      rw [Bool.eq_iff_iff, hread, if_neg hlost, covers_iff]
      exact (and_iff_right (Nat.zero_le v)).symm
  · refine Or.inl ⟨⟨hend, fun hhour hzero => absurd ⟨hhour, hzero⟩ hstart⟩, fun v => ?_⟩
    rw [spans_of_denotes_item hboundary hpos hstart h, anyCovers_cons, anyCovers_nil, Bool.or_false]

/-- A legible span within the domain is read. -/
theorem exists_denotes_item (hlegible : span.IsLegible scale) (hlow : scale.lowest ≤ span.start)
    (hpos : span.start < span.limit) (hhigh : span.limit ≤ scale.highest + 1) :
    ∃ values, span.item.Denotes scale values := by
  have hstart : span.start ≤ scale.highest := by omega
  by_cases hsingle : span.isSingle = true
  · exact ⟨_, (denotes_item_of_isSingle hsingle _).mpr ⟨⟨hlow, hstart⟩, rfl⟩⟩
  · have hstop := hlegible.1.resolve_left hsingle
    have hle := Nat.le_trans hlow (start_le_stop hpos)
    exact ⟨_, (denotes_item_of_not_isSingle hsingle _).mpr
      ⟨⟨hlow, hstart⟩, ⟨hle, hstop⟩, rfl⟩⟩

/-! ## Misread spans -/

theorem IsMisread.not_isLegible (h : span.IsMisread scale) : ¬span.IsLegible scale := by
  rintro ⟨hend, hmidnight⟩
  have hlong : ∀ {start stop : Nat}, start + 1 ≠ stop →
      ¬(Span.mk start stop .exclusive).isSingle = true := by
    intro start stop hne hsingle
    exact hne ((isSingle_iff _).mp hsingle).symm
  cases h with
  | firstHour => exact (hmidnight rfl rfl).1 rfl
  | wholeDay => exact (hmidnight rfl rfl).2 rfl
  | pastDay hstart =>
      have hstop := hend.resolve_left (hlong (by omega))
      exact Nat.not_succ_le_self 24 hstop
  | pastHour hscale hstart =>
      have hstop := hend.resolve_left (hlong (by omega))
      rcases hscale with rfl | rfl <;> exact Nat.not_succ_le_self 60 hstop

/-- Gathered spans are read for themselves unless they are among the misread ones. -/
theorem IsGathered.isLegible_iff (h : IsGathered scale spans) (hspan : span ∈ spans) :
    span.IsLegible scale ↔ ¬span.IsMisread scale := by
  constructor
  · intro hlegible hmisread
    exact hmisread.not_isLegible hlegible
  · intro hkeep
    have hboundary := h.boundary_eq hspan
    have hlimit := h.limit_le hspan
    obtain ⟨start, stop, boundary⟩ := span
    obtain rfl : boundary = scale.boundary := hboundary
    constructor
    · -- Only spans of hours, minutes and seconds may end past their domain.
      by_contra hend
      obtain ⟨hlong, hpast⟩ := not_or.mp hend
      rw [isSingle_iff] at hlong
      have hhighest := Nat.lt_of_not_le hpast
      cases scale with
      | hour =>
          obtain rfl : stop = 25 := Nat.le_antisymm hlimit hhighest
          apply hkeep
          apply IsMisread.pastDay
          rintro rfl
          exact hlong rfl
      | minute =>
          obtain rfl : stop = 61 := Nat.le_antisymm hlimit hhighest
          apply hkeep
          apply IsMisread.pastHour (Or.inl rfl)
          rintro rfl
          exact hlong rfl
      | second =>
          obtain rfl : stop = 61 := Nat.le_antisymm hlimit hhighest
          apply hkeep
          apply IsMisread.pastHour (Or.inr rfl)
          rintro rfl
          exact hlong rfl
      | _ => exact hpast (Nat.le_of_succ_le_succ hlimit)
    · rintro rfl hzero
      obtain rfl : start = 0 := hzero
      constructor
      · rintro rfl
        exact hkeep IsMisread.firstHour
      · rintro rfl
        exact hkeep IsMisread.wholeDay

/-! ## Lists of spans -/

/-- The items of spans cover together what the spans do if each covers what its span does. -/
theorem anyCovers_flatMap {values : List (Item Nat)} (h : List.Forall₂
      (fun (span : Span) value => ∀ v, anyCovers (Item.spans scale value) v = span.covers v)
      spans values) (v : Nat) :
    anyCovers (values.flatMap (Item.spans scale)) v = anyCovers spans v := by
  induction h with
  | nil => rfl
  | cons hspan _ ih => rw [List.flatMap_cons, anyCovers_append, anyCovers_cons, hspan, ih]

/-- Legible spans are read for themselves. -/
theorem gathered_of_isLegible (hspans : IsGathered scale spans)
    (hlegible : ∀ span ∈ spans, span.IsLegible scale) :
    Gathered scale (spans.map item) spans := by
  have hread : ∀ span ∈ spans, ∃ value, span.item.Denotes scale value ∧
      ∀ v, anyCovers (Item.spans scale value) v = span.covers v := by
    intro span hspan
    have hpos := hspans.start_lt_limit hspan
    obtain ⟨value, hvalue⟩ := exists_denotes_item (hlegible span hspan)
      (hspans.lowest_le_start hspan) hpos (hspans.limit_le hspan)
    refine ⟨value, hvalue, ?_⟩
    rcases anyCovers_of_denotes (hspans.boundary_eq hspan) hpos hvalue with h | h
    · exact h.2
    · exact absurd (hlegible span hspan) h.1
  obtain ⟨values, hvalues⟩ := Pointwise.exists_forall₂ hread
  have hcovers := anyCovers_flatMap (hvalues.imp fun _ _ h => h.2)
  have hitems : List.Forall₂ (Item.Denotes scale) (spans.map item) values :=
    List.forall₂_map_left_iff.mpr (hvalues.imp fun _ _ h => h.1)
  have hyear : scale = .year →
      anyCovers (values.flatMap (Item.spans scale)) scale.highest = false := by
    intro hscale
    rw [hcovers, ← Bool.not_eq_true]
    intro hlast
    exact (hspans.stores hlast).2.2 hscale rfl
  have hgathered := Gathered.intro hitems hyear
  rwa [hspans.ofAscending_eq hcovers] at hgathered

/-- Printed spans that are read at all are read for themselves, unless one of them loses
the hour 0 that it starts at. -/
theorem cases_of_gathered (hspans : IsGathered scale spans)
    (h : Gathered scale (spans.map item) gathered) :
    ((∀ span ∈ spans, span.IsLegible scale) ∧ gathered = spans) ∨
      ((¬∀ span ∈ spans, span.IsLegible scale) ∧ scale = .hour ∧ anyCovers spans 0 = true ∧
        anyCovers gathered 0 = false) := by
  obtain @⟨values, hvalues, -⟩ := h
  have hitems : List.Forall₂ (fun span value => span.item.Denotes scale value) spans values :=
    List.forall₂_map_left_iff.mp hvalues
  have hread : ∀ {span value}, span ∈ spans → span.item.Denotes scale value →
      (span.IsLegible scale ∧ ∀ v, anyCovers (Item.spans scale value) v = span.covers v) ∨
        (¬span.IsLegible scale ∧ scale = .hour ∧ span.start = 0 ∧
          anyCovers (Item.spans scale value) 0 = false) := fun hspan hvalue =>
    anyCovers_of_denotes (hspans.boundary_eq hspan) (hspans.start_lt_limit hspan) hvalue
  by_cases hlegible : ∀ span ∈ spans, span.IsLegible scale
  · refine Or.inl ⟨hlegible, hspans.ofAscending_eq (anyCovers_flatMap ?_)⟩
    apply Pointwise.imp_of_mem hitems
    intro span hspan value _ hvalue
    rcases hread hspan hvalue with hkeep | hlose
    · exact hkeep.2
    · exact absurd (hlegible span hspan) hlose.1
  · refine Or.inr ⟨hlegible, ?_⟩
    obtain ⟨lost, hlost, hbad⟩ : ∃ span ∈ spans, ¬span.IsLegible scale := by
      simpa using hlegible
    obtain ⟨value, -, hvalue⟩ := Pointwise.exists_right hitems hlost
    obtain ⟨-, hscale, hstart, -⟩ := (hread hlost hvalue).resolve_left fun hkeep => hbad hkeep.1
    have hpos := hspans.start_lt_limit hlost
    refine ⟨hscale, (anyCovers_iff spans 0).mpr ⟨lost, hlost, ?_⟩, ?_⟩
    · rw [covers_iff, hstart]
      omega
    · rw [← Bool.not_eq_true, anyCovers_ofAscending, mem_distinctValues, anyCovers_iff]
      rintro ⟨part, hpart, hzero⟩
      obtain ⟨value, hvalue, hpart⟩ := List.mem_flatMap.mp hpart
      obtain ⟨span, hspan, hdenotes⟩ := Pointwise.exists_left hitems hvalue
      have hcovered : anyCovers (Item.spans scale value) 0 = true :=
        (anyCovers_iff _ 0).mpr ⟨part, hpart, hzero⟩
      rcases hread hspan hdenotes with ⟨hkeep, hcovers⟩ | ⟨-, -, -, hnone⟩
      · -- Only one span starts at hour 0, and that one is not legible.
        rw [hcovers, covers_iff] at hcovered
        have hsame := hspans.eq_of_start_eq hspan hlost (by omega)
        exact hbad (hsame ▸ hkeep)
      · rw [hnone] at hcovered
        cases hcovered

end Span

end Timetable
