import Timetable.Proofs.Expression.Joining
import Timetable.Proofs.Schedule.Parsing
import Timetable.Schedule.Algebra

/-!
# Commas and the algebra

A comma between two clauses does what the operations do to their schedules:
clauses that are not negated are united, negated ones are intersected, and the
two sides meet in an intersection. Either way of putting a schedule together
yields the same lists of periods, in the order of the text.
-/

namespace Timetable.Schedule

open Expression (readClause parted)
open Text (IsPiece isTrailing)

/-- Combines schedules from the first to the last, if there are any. -/
def reduce? (op : Schedule → Schedule → Schedule) : List Schedule → Option Schedule
  | [] => none
  | first :: rest => some (rest.foldl op first)

/-- Combines the schedules of some clauses, each with its negation: the union of those that
are not negated, intersected with all others. A side without schedules is left out. -/
def combine? (clauses : List (Schedule × Bool)) : Option Schedule :=
  Option.merge intersection
    (reduce? union ((clauses.filter fun clause => !clause.2).map Prod.fst))
    (reduce? intersection ((clauses.filter fun clause => clause.2).map Prod.fst))

/-- The schedule with one period that includes. -/
def including (p : Period) : Schedule := ⟨[p], []⟩

/-- The schedule with one period that excludes. -/
def excluding (p : Period) : Schedule := ⟨[], [p]⟩

/-- The schedule of one clause. -/
def ofClause (result : Period × Bool) : Schedule :=
  if result.2 then excluding result.1 else including result.1

/-! ## Combined schedules -/

theorem foldl_union_including {periods : List Period} (hne : periods ≠ []) (more : List Period) :
    (more.map including).foldl union ⟨periods, []⟩ = ⟨periods ++ more, []⟩ := by
  induction more generalizing periods with
  | nil => rw [List.append_nil, List.map_nil, List.foldl_nil]
  | cons p more ih =>
      have hunion : union ⟨periods, []⟩ (including p) = ⟨periods ++ [p], []⟩ := by
        simp [union, including, hne, Period.intersect, Meeting.all]
      calc
        ((p :: more).map including).foldl union ⟨periods, []⟩
          = (more.map including).foldl union ⟨periods ++ [p], []⟩ := by
            rw [List.map_cons, List.foldl_cons, hunion]
        _ = ⟨periods ++ (p :: more), []⟩ := by
            rw [ih (List.append_ne_nil_of_left_ne_nil hne [p]), List.append_assoc,
              List.singleton_append]

theorem foldl_intersection_excluding (periods more : List Period) :
    (more.map excluding).foldl intersection ⟨[], periods⟩ = ⟨[], periods ++ more⟩ := by
  induction more generalizing periods with
  | nil => rw [List.append_nil, List.map_nil, List.foldl_nil]
  | cons p more ih =>
      have hintersection : intersection ⟨[], periods⟩ (excluding p) = ⟨[], periods ++ [p]⟩ := rfl
      rw [List.map_cons, List.foldl_cons, hintersection, ih, List.append_assoc,
        List.singleton_append]

theorem reduce?_union_including (p : Period) (rest : List Period) :
    reduce? union ((p :: rest).map including) = some ⟨p :: rest, []⟩ :=
  congrArg some (foldl_union_including (List.cons_ne_nil p []) rest)

theorem reduce?_intersection_excluding (p : Period) (rest : List Period) :
    reduce? intersection ((p :: rest).map excluding) = some ⟨[], p :: rest⟩ :=
  congrArg some (foldl_intersection_excluding [p] rest)

/-- The two sides of combined clauses meet in the schedule of all their periods. -/
theorem merge_reduce? {positive negative : List Period} (h : positive ≠ [] ∨ negative ≠ []) :
    Option.merge intersection (reduce? union (positive.map including))
      (reduce? intersection (negative.map excluding)) = some ⟨positive, negative⟩ := by
  cases positive with
  | nil =>
      obtain ⟨q, qs, rfl⟩ := List.exists_cons_of_ne_nil (h.resolve_left fun hne => hne rfl)
      rw [reduce?_intersection_excluding]
      rfl
  | cons p ps =>
      rw [reduce?_union_including]
      cases negative with
      | nil => rfl
      | cons q qs =>
          rw [reduce?_intersection_excluding]
          rfl

/-- The schedules of one sign are those of the periods of that sign. -/
theorem map_fst_filter_ofClause (results : List (Period × Bool)) :
    (((results.map fun r => (ofClause r, r.2)).filter fun clause => !clause.2).map Prod.fst =
        (parted results).1.map including) ∧
      ((results.map fun r => (ofClause r, r.2)).filter fun clause => clause.2).map Prod.fst =
        (parted results).2.map excluding := by
  induction results with
  | nil => exact ⟨rfl, rfl⟩
  | cons r rest ih =>
      obtain ⟨p, negative⟩ := r
      cases negative with
      | false => exact ⟨congrArg (including p :: ·) ih.1, ih.2⟩
      | true => exact ⟨ih.1, congrArg (excluding p :: ·) ih.2⟩

theorem combine?_map_ofClause {results : List (Period × Bool)} (hne : results ≠ []) :
    combine? ((results.map ofClause).zip (results.map Prod.snd)) =
      some ⟨(parted results).1, (parted results).2⟩ := by
  obtain ⟨hpositive, hnegative⟩ := map_fst_filter_ofClause results
  have hside : (parted results).1 ≠ [] ∨ (parted results).2 ≠ [] := by
    obtain ⟨⟨p, negative⟩, rest, rfl⟩ := List.exists_cons_of_ne_nil hne
    cases negative with
    | false => exact Or.inl (List.ne_nil_of_mem (mem_parted_fst.mpr List.mem_cons_self))
    | true => exact Or.inr (List.ne_nil_of_mem (mem_parted_snd.mpr List.mem_cons_self))
  rw [List.zip_map', combine?, hpositive, hnegative, merge_reduce? hside]

/-! ## Joined clauses -/

/-- A clause that is read constrains some scale. -/
theorem isUnconstrained_of_readClause {t : Text} {result : Period × Bool}
    (h : (readClause t).outcome = .ok result) : result.1.isUnconstrained = false := by
  obtain ⟨phrase, hwritten⟩ := Expression.exists_written_of_readClause h
  exact isUnconstrained_of_yields hwritten ((Expression.readClause_eq_ok_iff hwritten result).mp h)

variable {texts : List Text} {tail : Text} {results : List (Period × Bool)}

theorem read_joined_of_ok (hne : texts ≠ []) (htexts : ∀ t ∈ texts, IsPiece t)
    (htail : ∀ c ∈ tail, isTrailing c = true)
    (h : List.Forall₂ (fun t result => (readClause t).outcome = .ok result) texts results) :
    (Expression.read ([','].intercalate texts ++ tail)).outcome = .ok (parted results) := by
  have htraverse := (Logged.outcome_traverse_eq_ok_iff readClause texts results).mpr h
  rw [Expression.read_joined hne htexts htail, Logged.bind_of_ok htraverse]
  rfl

/-- The periods of clauses that are read are stored as they are. -/
theorem ofPeriods_parted
    (h : List.Forall₂ (fun t result => (readClause t).outcome = .ok result) texts results) :
    ofPeriods (parted results).1 (parted results).2 =
      ⟨(parted results).1, (parted results).2⟩ := by
  have hall : ∀ result ∈ results, result.1.isUnconstrained = false := by
    intro result hresult
    obtain ⟨t, -, hread⟩ := Pointwise.exists_left h hresult
    exact isUnconstrained_of_readClause hread
  apply ofPeriods_eq
  · intro p hp
    exact hall _ (mem_parted_fst.mp hp)
  · intro p hp
    exact hall _ (mem_parted_snd.mp hp)

theorem parse_joined_of_ok (hne : texts ≠ []) (htexts : ∀ t ∈ texts, IsPiece t)
    (htail : ∀ c ∈ tail, isTrailing c = true)
    (h : List.Forall₂ (fun t result => (readClause t).outcome = .ok result) texts results) :
    parse ([','].intercalate texts ++ tail) = .ok ⟨(parted results).1, (parted results).2⟩ := by
  rw [parse, read_joined_of_ok hne htexts htail h]
  exact congrArg Except.ok (ofPeriods_parted h)

/-- A clause by itself is parsed for the schedule of its one period. -/
theorem parse_piece {t : Text} {result : Period × Bool} (ht : IsPiece t)
    (h : (readClause t).outcome = .ok result) : parse t = .ok (ofClause result) := by
  have hparse := parse_joined_of_ok (List.cons_ne_nil t []) (by simpa using ht)
    (fun c hc => absurd hc List.not_mem_nil) (.cons h .nil)
  rw [List.intercalate_singleton, List.append_nil] at hparse
  rw [hparse]
  obtain ⟨p, negative⟩ := result
  cases negative <;> rfl

/-- Texts without commas, joined by commas and followed by any commas and blanks, are read for
the periods of the clauses that they are, those that are not negated and those that are, in
order; and the schedule is the one that their own schedules combine to. If some text is no
clause, the first such text is what reading and parsing fail for. -/
theorem parse_joined (hne : texts ≠ []) (htexts : ∀ t ∈ texts, ',' ∉ t ∧ ¬Text.IsGap t)
    (htail : ∀ c ∈ tail, c = ',' ∨ Text.isBlank c = true) :
    (∀ results,
      List.Forall₂ (fun t result => (readClause t).outcome = .ok result) texts results →
        (Expression.read ([','].intercalate texts ++ tail)).outcome = .ok (parted results) ∧
          ∃ schedules schedule,
            List.Forall₂ (fun t single => parse t = .ok single) texts schedules ∧
              parse ([','].intercalate texts ++ tail) = .ok schedule ∧
                combine? (schedules.zip (results.map Prod.snd)) = some schedule) ∧
    ∀ before t after results e, texts = before ++ t :: after →
      List.Forall₂ (fun t result => (readClause t).outcome = .ok result) before results →
        (readClause t).outcome = .error e →
          (Expression.read ([','].intercalate texts ++ tail)).outcome = .error e ∧
            parse ([','].intercalate texts ++ tail) = .error e := by
  have hpieces : ∀ t ∈ texts, IsPiece t := fun t ht => ⟨(htexts t ht).1, (htexts t ht).2⟩
  have htrailing : ∀ c ∈ tail, isTrailing c = true := fun c hc =>
    (Text.isTrailing_iff c).mpr (htail c hc)
  constructor
  · intro results hresults
    have hresults_ne : results ≠ [] := by
      intro hnil
      rw [hnil] at hresults
      exact hne (List.forall₂_nil_right_iff.mp hresults)
    refine ⟨read_joined_of_ok hne hpieces htrailing hresults, results.map ofClause, _, ?_,
      parse_joined_of_ok hne hpieces htrailing hresults, combine?_map_ofClause hresults_ne⟩
    apply List.forall₂_map_right_iff.mpr
    exact Pointwise.imp_of_mem hresults fun t ht result _ hread => parse_piece (hpieces t ht) hread
  · intro before t after results e hsplit hbefore ht
    have hread : (Expression.read ([','].intercalate texts ++ tail)).outcome = .error e := by
      have htraverse : (Logged.traverse readClause (before ++ t :: after)).outcome = .error e :=
        Logged.outcome_traverse_eq_error hbefore ht
      rw [Expression.read_joined hne hpieces htrailing, hsplit, Logged.bind_of_error htraverse]
    refine ⟨hread, ?_⟩
    rw [parse, hread]
    rfl

/-- Clauses of both signs with commas behind them, and two clauses that are not read. -/
theorem parse_joined_mornings :
    (∃ schedules schedule,
      List.Forall₂ (fun t single => parse t = .ok single)
        [" WD {mon}".toList, "NOT hr {8} ".toList, "wd {tue}".toList, "! md {1}".toList]
        schedules ∧
      parse " WD {mon},NOT hr {8} ,wd {tue},! md {1} ,,".toList = .ok schedule ∧
        combine? (schedules.zip [false, true, false, true]) = some schedule) ∧
    parse "wd {mon},hr {25},wd".toList = .error (.hourNumber "25".toList) := by
  constructor
  · have htext : " WD {mon},NOT hr {8} ,wd {tue},! md {1} ,,".toList =
        [','].intercalate [" WD {mon}".toList, "NOT hr {8} ".toList, "wd {tue}".toList,
          "! md {1}".toList] ++ " ,,".toList := by
      decide +kernel
    have hclauses : List.Forall₂ (fun t result => (readClause t).outcome = .ok result)
        [" WD {mon}".toList, "NOT hr {8} ".toList, "wd {tue}".toList, "! md {1}".toList]
        [(.ofConstraints [(.weekDay, [⟨1, 1, .inclusive⟩])], false),
          (.ofConstraints [(.hour, [⟨8, 9, .exclusive⟩])], true),
          (.ofConstraints [(.weekDay, [⟨2, 2, .inclusive⟩])], false),
          (.ofConstraints [(.monthDay, [⟨1, 1, .inclusive⟩])], true)] := by
      refine .cons ?_ (.cons ?_ (.cons ?_ (.cons ?_ .nil))) <;> decide +kernel
    have htail : (" ,,".toList.all fun c => decide (c = ',') || Text.isBlank c) = true := by
      decide +kernel
    rw [htext]
    exact ((parse_joined (by decide) (by decide +kernel)
      (fun c hc => by simpa using List.all_eq_true.mp htail c hc)).1 _ hclauses).2
  · have htext : "wd {mon},hr {25},wd".toList =
        [','].intercalate ["wd {mon}".toList, "hr {25}".toList, "wd".toList] ++ [] := by
      decide +kernel
    have hmonday : List.Forall₂ (fun t result => (readClause t).outcome = .ok result)
        ["wd {mon}".toList] [(.ofConstraints [(.weekDay, [⟨1, 1, .inclusive⟩])], false)] :=
      .cons (by decide +kernel) .nil
    have hhour : (readClause "hr {25}".toList).outcome = .error (.hourNumber "25".toList) := by
      decide +kernel
    rw [htext]
    exact ((parse_joined (by decide) (by decide +kernel) (List.forall_mem_nil _)).2
      _ _ _ _ _ rfl hmonday hhour).2

end Timetable.Schedule
