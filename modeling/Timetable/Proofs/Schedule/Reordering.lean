import Timetable.Proofs.Expression.Reordering
import Timetable.Proofs.Schedule.Joining

/-!
# Expressions in another order

The clauses of an expression are read one by one, each as it stands between its
commas. So in another order they are parsed for the same periods in another order,
and clauses that are rearranged in themselves for the same schedule.
-/

namespace Timetable.Expression

open Text (IsGap IsPiece SamePiece isTrailing)

/-- Blanks are no clause. -/
theorem not_isGap_of_readClause {t : Text} {result : Period × Bool}
    (h : (readClause t).outcome = .ok result) : ¬IsGap t := by
  intro hgap
  obtain ⟨phrase, hwritten⟩ := exists_written_of_readClause h
  rw [Text.trim_gap hgap] at hwritten
  exact not_written_nil phrase hwritten

/-- An expression is read by reading its pieces as they stand between the commas. -/
theorem exists_results_of_read {t : Text} {periods : List Period × List Period}
    (hne : Text.dropEndWhile isTrailing t ≠ []) (h : (read t).outcome = .ok periods) :
    ∃ results, periods = parted results ∧
      List.Forall₂ (fun piece result => (readClause piece).outcome = .ok result)
        (subexpressions t) results := by
  obtain ⟨gap, first, rest, hgap, hsub, hclauses, hcomma⟩ := exists_pieces_subexpressions hne
  simp only [read, Logged.outcome_bind_eq_ok_iff, Logged.outcome_pure, Except.ok.injEq] at h
  obtain ⟨results, htraverse, rfl⟩ := h
  have hpieces : ∀ piece ∈ first :: rest, IsPiece piece := by
    intro piece hpiece
    refine ⟨hcomma piece hpiece, fun hblank => ?_⟩
    have hmem : Text.lowercase piece ∈ clauseTexts t := hclauses ▸ List.mem_map_of_mem hpiece
    have hread := (Logged.outcome_traverse_eq_ok_iff readClause _ results).mp htraverse
    obtain ⟨result, -, hresult⟩ := Pointwise.exists_right hread hmem
    apply not_isGap_of_readClause hresult
    rwa [Text.lowercase_gap hblank]
  have hsame : List.Forall₂ SamePiece (subexpressions t) (first :: rest) := by
    rw [hsub]
    apply List.Forall₂.cons
    · refine ⟨hpieces first List.mem_cons_self, ?_⟩
      simpa using (Text.trim_gap_append_append_gap hgap Text.isGap_nil first).symm
    · apply List.forall₂_same.mpr
      intro piece hpiece
      exact ⟨hpieces piece (List.mem_cons_of_mem first hpiece), rfl⟩
  rw [hclauses, traverse_readClause_lowercase hsame] at htraverse
  exact ⟨results, rfl, (Logged.outcome_traverse_eq_ok_iff readClause _ results).mp htraverse⟩

end Timetable.Expression

namespace Timetable.Schedule

open Expression (readClause parted subexpressions Rearranged Layout Block)
open Text (IsPiece isTrailing)

/-- Commas and blanks alone are parsed for the schedule without periods. -/
theorem parse_eq_always {t : Text} (h : Text.dropEndWhile isTrailing t = []) :
    parse t = .ok always := by
  rw [parse, Expression.read, Expression.clauseTexts, Expression.normalized_eq_nil h]
  rfl

/-- The pieces of an expression that is parsed are read for the periods of the schedule. -/
theorem exists_results_of_parse {e : Text} {schedule : Schedule}
    (hne : Text.dropEndWhile isTrailing e ≠ []) (h : parse e = .ok schedule) :
    ∃ results, schedule = ⟨(parted results).1, (parted results).2⟩ ∧
      List.Forall₂ (fun piece result => (readClause piece).outcome = .ok result)
        (subexpressions e) results := by
  unfold parse at h
  cases hread : (Expression.read e).outcome with
  | error e' =>
      rw [hread] at h
      cases h
  | ok periods =>
      obtain ⟨results, rfl, hresults⟩ := Expression.exists_results_of_read hne hread
      rw [hread] at h
      exact ⟨results, (Except.ok.inj h).symm.trans (ofPeriods_parted hresults), hresults⟩

/-- Results in another order are the same periods in another order. -/
theorem equivalent_of_perm {results results' : List (Period × Bool)} (h : results'.Perm results) :
    Equivalent ⟨(parted results).1, (parted results).2⟩
      ⟨(parted results').1, (parted results').2⟩ := by
  constructor
  · intro p
    simp only [mem_parted_fst, h.mem_iff]
  · intro p
    simp only [mem_parted_snd, h.mem_iff]

variable {texts : List Text} {tail e : Text} {schedule : Schedule}

theorem isTrailing_of_comma_or_blank (h : ∀ c ∈ tail, c = ',' ∨ Text.isBlank c = true) :
    ∀ c ∈ tail, isTrailing c = true := fun c hc => (Text.isTrailing_iff c).mpr (h c hc)

/-- An expression of commas and blanks has one empty piece. -/
theorem parse_blank (h : Text.dropEndWhile isTrailing e = [])
    (htail : ∀ c ∈ tail, c = ',' ∨ Text.isBlank c = true) :
    subexpressions e = [[]] ∧ parse e = .ok always ∧
      parse ([','].intercalate [[]] ++ tail) = .ok always := by
  refine ⟨?_, parse_eq_always h, parse_eq_always ?_⟩
  · rw [subexpressions, h, List.splitOn_nil]
  · exact Text.dropEndWhile_append_of_pos (isTrailing_of_comma_or_blank htail) []

/-- Pieces without commas that are read are parsed together. -/
theorem parse_intercalate {results : List (Period × Bool)} (hne : texts ≠ [])
    (hcomma : ∀ t ∈ texts, ',' ∉ t) (htail : ∀ c ∈ tail, c = ',' ∨ Text.isBlank c = true)
    (h : List.Forall₂ (fun t result => (readClause t).outcome = .ok result) texts results) :
    parse ([','].intercalate texts ++ tail) = .ok ⟨(parted results).1, (parted results).2⟩ := by
  apply parse_joined_of_ok hne _ (isTrailing_of_comma_or_blank htail) h
  intro t ht
  obtain ⟨result, -, hread⟩ := Pointwise.exists_right h ht
  exact ⟨hcomma t ht, Expression.not_isGap_of_readClause hread⟩

theorem exists_layout_of_mem {t : Text} (h : parse e = .ok schedule)
    (ht : t ∈ subexpressions e) (hne : t ≠ []) :
    ∃ negative blocks, Layout negative blocks t := by
  by_cases hblank : Text.dropEndWhile isTrailing e = []
  · obtain ⟨hsub, -⟩ := parse_blank hblank (List.forall_mem_nil _)
    rw [hsub] at ht
    exact absurd (List.mem_singleton.mp ht) hne
  · obtain ⟨results, -, hresults⟩ := exists_results_of_parse hblank h
    obtain ⟨result, -, hread⟩ := Pointwise.exists_right hresults ht
    obtain ⟨phrase, hwritten⟩ := Expression.exists_written_of_readClause hread
    obtain ⟨blocks, hlayout, -⟩ := hwritten.exists_layout
    exact ⟨phrase.negative, blocks, hlayout⟩

/-- In another order the pieces are parsed for an equivalent schedule. -/
theorem exists_parse_of_perm (h : parse e = .ok schedule) (hperm : texts.Perm (subexpressions e))
    (htail : ∀ c ∈ tail, c = ',' ∨ Text.isBlank c = true) :
    ∃ other, parse ([','].intercalate texts ++ tail) = .ok other ∧ schedule.Equivalent other := by
  by_cases hblank : Text.dropEndWhile isTrailing e = []
  · obtain ⟨hsub, halways, hparse⟩ := parse_blank hblank htail
    obtain rfl := Except.ok.inj (halways.symm.trans h)
    rw [hsub] at hperm
    rw [List.perm_singleton.mp hperm]
    exact ⟨always, hparse, fun _ => Iff.rfl, fun _ => Iff.rfl⟩
  · obtain ⟨results, rfl, hresults⟩ := exists_results_of_parse hblank h
    obtain ⟨results', hresults', hperm'⟩ := List.perm_comp_forall₂ hperm hresults
    have hne : texts ≠ [] := by
      rintro rfl
      exact List.splitOn_ne_nil ',' _ hperm.nil_eq.symm
    have hcomma : ∀ t ∈ texts, ',' ∉ t := fun t ht =>
      Text.notMem_of_mem_splitOn (hperm.mem_iff.mp ht)
    exact ⟨_, parse_intercalate hne hcomma htail hresults', equivalent_of_perm hperm'⟩

/-- With its pieces rearranged an expression is parsed for the same schedule. -/
theorem parse_of_rearranged (h : parse e = .ok schedule)
    (htexts : List.Forall₂ Rearranged (subexpressions e) texts)
    (htail : ∀ c ∈ tail, c = ',' ∨ Text.isBlank c = true) :
    parse ([','].intercalate texts ++ tail) = .ok schedule := by
  by_cases hblank : Text.dropEndWhile isTrailing e = []
  · obtain ⟨hsub, halways, hparse⟩ := parse_blank hblank htail
    obtain rfl := Except.ok.inj (halways.symm.trans h)
    rw [hsub] at htexts
    obtain ⟨t, rest, ht, hrest, rfl⟩ := List.forall₂_cons_left_iff.mp htexts
    rwa [List.forall₂_nil_left_iff.mp hrest, ht.eq_nil]
  · obtain ⟨results, rfl, hresults⟩ := exists_results_of_parse hblank h
    have hne : texts ≠ [] := by
      rintro rfl
      exact List.splitOn_ne_nil ',' _ (List.forall₂_nil_right_iff.mp htexts)
    have hcomma : ∀ t ∈ texts, ',' ∉ t := by
      intro t ht
      obtain ⟨piece, hpiece, hrearranged⟩ := Pointwise.exists_left htexts ht
      exact hrearranged.comma_notMem (Text.notMem_of_mem_splitOn hpiece)
    apply parse_intercalate hne hcomma htail
    exact Pointwise.trans htexts.flip hresults fun hrearranged hread => hrearranged.readClause hread

/-- The order of an expression does not matter. Its pieces between commas may change places:
the result is parsed for an equivalent schedule. Within a piece, which is laid out as blocks,
the blocks may change places if each has another scale, and the items of a block may be
listed in any order and repeatedly: the result is parsed for the same schedule. -/
theorem parse_in_any_order (h : parse e = .ok schedule) :
    (∀ t ∈ subexpressions e, t ≠ [] → ∃ negative blocks, Layout negative blocks t) ∧
    (∀ texts tail, texts.Perm (subexpressions e) →
      (∀ c ∈ tail, c = ',' ∨ Text.isBlank c = true) →
        ∃ other, parse ([','].intercalate texts ++ tail) = .ok other ∧
          schedule.Equivalent other) ∧
    ∀ texts tail, List.Forall₂ Rearranged (subexpressions e) texts →
      (∀ c ∈ tail, c = ',' ∨ Text.isBlank c = true) →
        parse ([','].intercalate texts ++ tail) = .ok schedule :=
  ⟨fun _ ht hne => exists_layout_of_mem h ht hne,
    fun _ _ hperm htail => exists_parse_of_perm h hperm htail,
    fun _ _ htexts htail => parse_of_rearranged h htexts htail⟩

/-- The block `WD {Mon-Fri}`. -/
def workdays : Block :=
  Block.ofTokens .weekDay "WD ".toList "Mon-Fri".toList
    ⟨"wd".toList, [], [' '], by decide, Or.inl rfl, by decide, by decide +kernel⟩
    (by decide +kernel) (by decide)

/-- The block `hours{8}`. -/
def morning : Block :=
  Block.ofTokens .hour "hours".toList "8".toList
    ⟨"hour".toList, ['s'], [], by decide, Or.inr rfl, by decide, by decide +kernel⟩
    (by decide +kernel) (by decide)

/-- The block `yr {2020 2022 - 2024}`. -/
def listedYears : Block :=
  Block.ofTokens .year "yr ".toList "2020 2022 - 2024".toList
    ⟨"yr".toList, [], [' '], by decide, Or.inl rfl, by decide, by decide +kernel⟩
    (by decide +kernel) (by decide)

/-- The block `yr {2022-2024 2020 2020}`. -/
def repeatedYears : Block :=
  Block.ofTokens .year "yr ".toList "2022-2024 2020 2020".toList
    ⟨"yr".toList, [], [' '], by decide, Or.inl rfl, by decide, by decide +kernel⟩
    (by decide +kernel) (by decide)

theorem rearranged_workdays_morning :
    Rearranged " WD {Mon-Fri}hours{8}".toList "hours{8} WD {Mon-Fri} ".toList := by
  have hblocks : Expression.BlocksWritten [workdays, morning]
      ([' '] ++ (workdays.text ++ ([] ++ (morning.text ++ [])))) :=
    .cons (by decide) (.cons (by decide) (.nil (by decide)))
  have hblocks' : Expression.BlocksWritten [morning, workdays]
      ([] ++ (morning.text ++ ([' '] ++ (workdays.text ++ [' '])))) :=
    .cons (by decide) (.cons (by decide) (.nil (by decide)))
  exact Rearranged.groups (by decide) (List.Perm.swap workdays morning [])
    (Layout.plain (List.cons_ne_nil _ _) hblocks) (Layout.plain (List.cons_ne_nil _ _) hblocks')

theorem rearranged_listed_repeatedYears :
    Rearranged " NOT yr {2020 2022 - 2024}".toList " NOT yr {2022-2024 2020 2020}".toList := by
  have hlayout : ∀ block : Block, Layout true ([] ++ block :: [])
      ([' '] ++ ("NOT ".toList ++ ([] ++ (block.text ++ [])))) := fun block =>
    .negated (by decide) (by decide +kernel) (List.cons_ne_nil block [])
      (.cons (by decide) (.nil (by decide)))
  have hitems : ∀ item, item ∈ repeatedYears.items ↔ item ∈ listedYears.items := by
    have hlisted : listedYears.items = [.single "2020".toList,
      .interval "2022".toList "2024".toList] := by decide +kernel
    have hrepeated : repeatedYears.items = [.interval "2022".toList "2024".toList,
      .single "2020".toList, .single "2020".toList] := by decide +kernel
    intro item
    rw [hlisted, hrepeated]
    simp only [List.mem_cons, List.not_mem_nil, or_false, or_self]
    exact Or.comm
  have hscale : repeatedYears.scale = listedYears.scale := rfl
  exact Rearranged.items hscale hitems (hlayout listedYears) (hlayout repeatedYears)

/-- Two clauses in another order, and the blocks of one and the years of the other. -/
theorem parse_in_any_order_workdays :
    ∃ schedule, parse " WD {Mon-Fri}hours{8}, NOT yr {2020 2022 - 2024},".toList = .ok schedule ∧
      (∃ other, parse " NOT yr {2020 2022 - 2024}, WD {Mon-Fri}hours{8}".toList = .ok other ∧
        schedule.Equivalent other) ∧
      parse "hours{8} WD {Mon-Fri} , NOT yr {2022-2024 2020 2020}".toList = .ok schedule := by
  have h : parse " WD {Mon-Fri}hours{8}, NOT yr {2020 2022 - 2024},".toList = .ok
      ⟨[.ofConstraints [(.weekDay, [⟨1, 5, .inclusive⟩]), (.hour, [⟨8, 9, .exclusive⟩])]],
        [.ofConstraints [(.year, [⟨2020, 2020, .inclusive⟩, ⟨2022, 2024, .inclusive⟩])]]⟩ := by
    decide +kernel
  have hsub : subexpressions " WD {Mon-Fri}hours{8}, NOT yr {2020 2022 - 2024},".toList =
      [" WD {Mon-Fri}hours{8}".toList, " NOT yr {2020 2022 - 2024}".toList] := by
    decide +kernel
  have hswapped : " NOT yr {2020 2022 - 2024}, WD {Mon-Fri}hours{8}".toList = [','].intercalate
      [" NOT yr {2020 2022 - 2024}".toList, " WD {Mon-Fri}hours{8}".toList] ++ [] := by
    decide +kernel
  have hrearranged : "hours{8} WD {Mon-Fri} , NOT yr {2022-2024 2020 2020}".toList =
      [','].intercalate
        ["hours{8} WD {Mon-Fri} ".toList, " NOT yr {2022-2024 2020 2020}".toList] ++ [] := by
    decide +kernel
  obtain ⟨-, hclauses, hpieces⟩ := parse_in_any_order h
  rw [hsub] at hclauses hpieces
  refine ⟨_, h, ?_, ?_⟩
  · rw [hswapped]
    exact hclauses _ [] (List.Perm.swap _ _ []) (List.forall_mem_nil _)
  · rw [hrearranged]
    exact hpieces _ [] (.cons rearranged_workdays_morning
      (.cons rearranged_listed_repeatedYears .nil)) (List.forall_mem_nil _)

end Timetable.Schedule
