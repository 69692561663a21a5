import Timetable.Proofs.Expression.Refusals
import Timetable.Proofs.Text.Divider

/-!
# Where clauses are defective

A clause that fails to be read is defective at one place, and all in front of it
could be read by itself. The place is either where groups were expected and none
starts, or the first group that is refused.
-/

namespace Timetable.Expression

open Text (IsGap)

/-- A group stands at the start of the text, with its closing brace and perhaps a gap in
front. -/
def StartsGroup (t : Text) : Prop :=
  ∃ (group : Group) (piece after : Text),
    group.Opened piece ∧ '\x7d' ∉ piece ∧ t = piece ++ '\x7d' :: after

/-- A marker of a negation stands at the start of the text. -/
def IsNegated (t : Text) : Prop := ∃ marker ∈ negations, marker <+: t

/-- What stands in front of the first group of a clause that is negated or is not. -/
inductive Opening : Bool → Text → Prop
  | plain : Opening false []
  | negated {marker gap} (hmarker : marker ∈ negations) (hgap : IsGap gap) :
      Opening true (marker ++ gap)

/-- The front of a clause has no defect: it holds no group yet, or it is a clause by
itself, negated alike, that ends with a group. -/
inductive Intact (sub : Text) : Text → Prop
  | opening {front negative} (hnegative : negative = true ↔ IsNegated sub)
      (h : Opening negative front) : Intact sub front
  | groups {front period negative} (hnegative : negative = true ↔ IsNegated sub)
      (hread : (readClause front).outcome = .ok (period, negative))
      (hlast : front.getLast? = some '\x7d') : Intact sub front

/-- The error is about the place up to which the clause is intact. Either no group starts
there, and the error tells how many bytes lie in front of it, or the group that does is
refused. -/
def Defect (sub : Text) : Error → Prop
  | .malformed position rest =>
      ∃ front, sub = front ++ rest ∧ position = Text.byteLength front ∧ Intact sub front ∧
        ¬StartsGroup rest
  | e =>
      ∃ front piece after, ∃ group : Group, sub = front ++ (piece ++ '\x7d' :: after) ∧
        Intact sub front ∧ '\x7d' ∉ piece ∧ group.Opened piece ∧ group.Refused e

/-! ## Openings -/

theorem dropNegation_snd_iff (t : Text) : (dropNegation t).2 = true ↔ IsNegated t := by
  constructor
  · intro h
    rcases dropNegation_cases t with hdrop | ⟨marker, hmarker, gap, rest, -, ht, -⟩
    · rw [hdrop] at h
      cases h
    · exact ⟨marker, hmarker, gap ++ rest, ht.symm⟩
  · rintro ⟨marker, hmarker, rest, rfl⟩
    rw [dropNegation_append hmarker]

/-- Dropping a negation takes the opening of a clause away. -/
theorem exists_opening (t : Text) :
    ∃ opening, Opening (dropNegation t).2 opening ∧ t = opening ++ (dropNegation t).1 := by
  rcases dropNegation_cases t with hdrop | ⟨marker, hmarker, gap, rest, hgap, ht, hdrop⟩
  · rw [hdrop]
    exact ⟨[], Opening.plain, rfl⟩
  · rw [hdrop]
    exact ⟨marker ++ gap, Opening.negated hmarker hgap, by rw [ht, List.append_assoc]⟩

/-- Listings behind an opening are a phrase. -/
theorem Opening.written {negative : Bool} {opening t : Text} {listings : List Listing}
    (hopening : Opening negative opening) (hne : listings ≠ []) (h : ListingsWritten listings t) :
    Phrase.Written ⟨negative, listings⟩ (opening ++ t) := by
  cases hopening with
  | plain => exact Phrase.Written.plain hne h
  | negated hmarker hgap =>
      rw [List.append_assoc]
      exact Phrase.Written.negated hmarker hne (h.gap_append hgap)

/-! ## Groups -/

/-- The pieces with their closing braces. -/
def closed (pieces : List Text) : Text := pieces.flatMap (· ++ ['\x7d'])

theorem intercalate_closed (pieces : List Text) {left : List Text} (h : left ≠ []) :
    ['\x7d'].intercalate (pieces ++ left) = closed pieces ++ ['\x7d'].intercalate left := by
  induction pieces with
  | nil => rfl
  | cons piece pieces ih =>
      have hne : pieces ++ left ≠ [] := List.append_ne_nil_of_right_ne_nil pieces h
      rw [List.cons_append, List.intercalate_cons_of_ne_nil hne, ih]
      simp [closed]

/-- No group starts where the leading ones end. -/
theorem not_startsGroup_leading {pieces : List Text} (h : ∀ piece ∈ pieces, '\x7d' ∉ piece) :
    ¬StartsGroup (['\x7d'].intercalate (Group.leading pieces).2) := by
  fun_induction Group.leading pieces with
  | case1 piece next rest group hgroup groups left heq ih =>
      rw [heq] at ih
      exact ih (List.forall_mem_cons.mp h).2
  | case2 piece next rest hnone =>
      rintro ⟨group, front, after, hopened, hbrace, ht⟩
      rw [List.intercalate_cons_of_ne_nil (List.cons_ne_nil next rest), List.append_assoc,
        List.singleton_append] at ht
      have hcut := congrArg (List.splitOn '\x7d') ht
      rw [List.splitOn_append_cons_self_of_not_mem (h piece List.mem_cons_self),
        List.splitOn_append_cons_self_of_not_mem hbrace] at hcut
      obtain ⟨rfl, -⟩ := List.cons.inj hcut
      rw [Group.ofText?_of_opened hopened] at hnone
      cases hnone
  | case3 pieces hshort =>
      rintro ⟨group, front, after, -, -, ht⟩
      have hmem : '\x7d' ∈ ['\x7d'].intercalate pieces := by
        rw [ht]
        exact List.mem_append_right front List.mem_cons_self
      rcases pieces with _ | ⟨piece, _ | ⟨next, rest⟩⟩
      · cases hmem
      · rw [List.intercalate_singleton] at hmem
        exact h piece List.mem_cons_self hmem
      · exact (hshort piece next rest rfl).elim

namespace Group

/-- A group that is read has a legal listing. -/
theorem listing_of_readSpans {group : Group} {spans : List Span}
    (h : (readSpans group.scale group.body).outcome = .ok spans) :
    group.listing.Matches group ∧ group.listing.Legal := by
  constructor
  · exact ⟨rfl, itemsWritten_of_readSpans h⟩
  · apply (Gathered.exists_iff_legal _ _).mp
    exact ⟨spans, (readSpans_eq_ok_iff_gathered _ _).mp h⟩

end Group

/-! ## Clauses -/

/-- Groups that are read make up a clause behind its opening. -/
theorem grammatical_closed {negative : Bool} {opening : Text} {groups : List Group}
    {pieces : List Text} (hopening : Opening negative opening) (hne : groups ≠ [])
    (hopened : List.Forall₂ Group.Opened groups pieces)
    (hbrace : ∀ piece ∈ pieces, '\x7d' ∉ piece)
    (hread : ∀ group ∈ groups, ∃ spans, (readSpans group.scale group.body).outcome = .ok spans) :
    ∃ phrase : Phrase, phrase.negative = negative ∧ phrase.Written (opening ++ closed pieces) ∧
      ∀ listing ∈ phrase.listings, listing.Legal := by
  have hlistings : ∀ group ∈ groups, group.listing.Matches group ∧ group.listing.Legal := by
    intro group hgroup
    obtain ⟨spans, hspans⟩ := hread group hgroup
    exact Group.listing_of_readSpans hspans
  have hmatch : List.Forall₂ Listing.Matches (groups.map Group.listing) groups :=
    List.forall₂_map_left_iff.mpr (List.forall₂_same.mpr fun group hgroup =>
      (hlistings group hgroup).1)
  have hwritten := listingsWritten_intercalate hmatch hopened Text.isGap_nil hbrace
  rw [intercalate_closed pieces (List.cons_ne_nil [] []), List.intercalate_singleton,
    List.append_nil] at hwritten
  refine ⟨⟨negative, groups.map Group.listing⟩, rfl,
    hopening.written (List.map_eq_nil_iff.not.mpr hne) hwritten, ?_⟩
  intro listing hlisting
  obtain ⟨group, hgroup, rfl⟩ := List.mem_map.mp hlisting
  exact (hlistings group hgroup).2

/-- The front of a clause in lowercase that ends with a brace is in normal form itself. -/
theorem lowercase_trim_front {t front rest : Text}
    (hsplit : Text.lowercase (Text.trim t) = front ++ rest)
    (hlast : front.getLast? = some '\x7d') : Text.lowercase (Text.trim front) = front := by
  have hne : front ≠ [] := by
    rintro rfl
    cases hlast
  have htrim : Text.trim front = front := by
    apply Text.trim_gap_append Text.isGap_nil
    · have hhead := Text.head?_lowercase (Text.head?_trim t)
      rwa [hsplit, List.head?_append_of_ne_nil _ hne] at hhead
    · intro c hc
      obtain rfl := Option.some.inj (hlast.symm.trans hc)
      decide
  rw [htrim]
  apply Text.lowercase_eq_self
  intro c hc
  rw [hsplit]
  exact List.mem_append_left rest hc

theorem getLast?_closed {pieces : List Text} (h : pieces ≠ []) (opening : Text) :
    (opening ++ closed pieces).getLast? = some '\x7d' := by
  obtain ⟨front, piece, rfl⟩ := (List.eq_nil_or_concat' pieces).resolve_left h
  simp [closed]

/-- Up to where its leading groups are read a clause is intact. -/
theorem intact_closed {t opening rest : Text} {groups : List Group} {pieces : List Text}
    (hsplit : Text.lowercase (Text.trim t) = (opening ++ closed pieces) ++ rest)
    (hopening : Opening (dropNegation (Text.lowercase (Text.trim t))).2 opening)
    (hopened : List.Forall₂ Group.Opened groups pieces)
    (hbrace : ∀ piece ∈ pieces, '\x7d' ∉ piece)
    (hread : ∀ group ∈ groups, ∃ spans, (readSpans group.scale group.body).outcome = .ok spans) :
    Intact (Text.lowercase (Text.trim t)) (opening ++ closed pieces) := by
  have hnegative := dropNegation_snd_iff (Text.lowercase (Text.trim t))
  cases hopened with
  | nil =>
      rw [closed, List.flatMap_nil, List.append_nil]
      exact Intact.opening hnegative hopening
  | @cons group piece groups pieces hgroup hgroups =>
      have hlast := getLast?_closed (List.cons_ne_nil piece pieces) opening
      obtain ⟨phrase, hphrase, hwritten, hlegal⟩ := grammatical_closed hopening
        (List.cons_ne_nil group groups) (.cons hgroup hgroups) hbrace hread
      rw [← lowercase_trim_front hsplit hlast] at hwritten
      obtain ⟨result, hyields⟩ := (Phrase.exists_yields_iff phrase).mpr hlegal
      have hok := (readClause_eq_ok_iff hwritten result).mpr hyields
      rw [← hphrase, ← hyields.negative_eq] at hnegative
      exact Intact.groups hnegative hok hlast

/-- Cutting a clause takes nothing away from it: behind its opening stand its groups, and
behind these no group starts. -/
theorem exists_closed_ofText (sub : Text) :
    ∃ opening pieces, Opening (dropNegation sub).2 opening ∧
      List.Forall₂ Group.Opened (Clause.ofText sub).groups pieces ∧
      (∀ piece ∈ pieces, '\x7d' ∉ piece) ∧
      sub = (opening ++ closed pieces) ++ (Clause.ofText sub).leftover ∧
      ¬StartsGroup (Clause.ofText sub).leftover := by
  obtain ⟨opening, hopening, hstart⟩ := exists_opening sub
  obtain ⟨pieces, hopened, hsplit⟩ :=
    Group.exists_opened_of_leading ((dropNegation sub).1.splitOn '\x7d')
  have hbrace : ∀ piece ∈ (dropNegation sub).1.splitOn '\x7d', '\x7d' ∉ piece :=
    fun piece hpiece => Text.notMem_of_mem_splitOn hpiece
  refine ⟨opening, pieces, hopening, hopened, ?_, ?_, not_startsGroup_leading hbrace⟩
  · intro piece hpiece
    exact hbrace piece (hsplit ▸ List.mem_append_left _ hpiece)
  · have hleft := Group.leading_snd_ne_nil (List.splitOn_ne_nil '\x7d' (dropNegation sub).1)
    calc
      sub = opening ++ (dropNegation sub).1 := hstart
      _ = opening ++ ['\x7d'].intercalate ((dropNegation sub).1.splitOn '\x7d') := by
          rw [List.intercalate_splitOn]
      _ = (opening ++ closed pieces) ++ (Clause.ofText sub).leftover := by
          rw [hsplit, intercalate_closed pieces hleft, ← List.append_assoc]
          rfl

theorem defect_of_refused {sub front piece after : Text} {group : Group} {e : Error}
    (hsplit : sub = front ++ (piece ++ '\x7d' :: after)) (hfront : Intact sub front)
    (hbrace : '\x7d' ∉ piece) (hopened : group.Opened piece) (hrefused : group.Refused e) :
    Defect sub e := by
  have hgroup : ∃ front piece after, ∃ group : Group, sub = front ++ (piece ++ '\x7d' :: after) ∧
      Intact sub front ∧ '\x7d' ∉ piece ∧ group.Opened piece ∧ group.Refused e :=
    ⟨front, piece, after, group, hsplit, hfront, hbrace, hopened, hrefused⟩
  cases e with
  | malformed position rest => exact absurd rfl (hrefused.ne_malformed position rest)
  | _ => exact hgroup

/-- Behind groups that are read the leftover is malformed. -/
theorem defect_leftover {t sub : Text} (hsub : Text.lowercase (Text.trim t) = sub)
    (hread : ∀ group ∈ (Clause.ofText sub).groups, ∃ spans,
      (readSpans group.scale group.body).outcome = .ok spans) :
    Defect sub (.malformed (Text.byteLength sub - Text.byteLength (Clause.ofText sub).leftover)
      (Clause.ofText sub).leftover) := by
  subst hsub
  obtain ⟨opening, pieces, hopening, hopened, hbrace, hsplit, hrest⟩ :=
    exists_closed_ofText (Text.lowercase (Text.trim t))
  have hlength := congrArg Text.byteLength hsplit
  rw [Text.byteLength_append] at hlength
  exact ⟨_, hsplit, Nat.sub_eq_of_eq_add hlength,
    intact_closed hsplit hopening hopened hbrace hread, hrest⟩

/-- The first group that fails to be read is refused where the clause is intact. -/
theorem defect_of_readSpans {t sub : Text} {before after : List Group} {group : Group} {e : Error}
    (hsub : Text.lowercase (Text.trim t) = sub)
    (hgroups : (Clause.ofText sub).groups = before ++ group :: after)
    (hbefore : ∀ group ∈ before, ∃ spans, (readSpans group.scale group.body).outcome = .ok spans)
    (h : (readSpans group.scale group.body).outcome = .error e) : Defect sub e := by
  subst hsub
  obtain ⟨opening, pieces, hopening, hopened, hbrace, hsplit, -⟩ :=
    exists_closed_ofText (Text.lowercase (Text.trim t))
  rw [hgroups] at hopened
  obtain ⟨front, piece, back, rfl, hfront, hpiece, -⟩ := Pointwise.exists_append_cons hopened
  obtain ⟨hbraces, hothers⟩ := List.forall_mem_append.mp hbrace
  have hcut := hsplit.trans (show _ = (opening ++ closed front) ++ (piece ++ '\x7d' ::
    (closed back ++ (Clause.ofText (Text.lowercase (Text.trim t))).leftover)) by simp [closed])
  exact defect_of_refused hcut (intact_closed hcut hopening hfront hbraces hbefore)
    (hothers piece List.mem_cons_self) hpiece (Group.refused_of_readSpans h)

/-- A clause fails to be read by the error about its defect. -/
theorem defect_of_readClause {t : Text} {e : Error} (h : (readClause t).outcome = .error e) :
    Defect (Text.lowercase (Text.trim t)) e := by
  simp only [readClause, Logged.outcome_bind_eq_error_iff, Logged.outcome_bind_eq_ok_iff,
    Logged.outcome_traverse_eq_error_iff, Logged.outcome_traverse_eq_ok_iff,
    Logged.outcome_pure] at h
  rcases h with ⟨before, group, after, hgroups, hbefore, hgroup⟩ | ⟨constraints, hgroups, h⟩
  · apply defect_of_readSpans rfl hgroups
    · intro group hmem
      obtain ⟨-, spans, hspans, -⟩ := hbefore group hmem
      exact ⟨spans, hspans⟩
    · rcases hgroup with hgroup | ⟨_, -, hgroup⟩
      · exact hgroup
      · cases hgroup
  · split at h
    · cases h
    · obtain rfl := Except.error.inj h
      apply defect_leftover rfl
      intro group hmem
      obtain ⟨-, -, spans, hspans, -⟩ := Pointwise.exists_right hgroups hmem
      exact ⟨spans, hspans⟩

/-- Errors point at the first defect of a clause from the left, and for hours they tell a
text of another form from a number that is out of range. -/
theorem readClause_error_is_leftmost {t : Text} {e : Error}
    (h : (readClause t).outcome = .error e) :
    Defect (Text.lowercase (Text.trim t)) e ∧
      ∀ v e', readValue .hour v = .error e' →
        (e' = .hourForm v ↔ ¬HourForm v) ∧ (HourForm v → e' = .hourNumber v) := by
  refine ⟨defect_of_readClause h, ?_⟩
  intro v e' hvalue
  cases (readValue_eq_error_iff .hour v e').mp hvalue with
  | hourForm hform => exact ⟨⟨fun _ => hform, fun _ => rfl⟩, fun h => absurd h hform⟩
  | hourNumber hform => exact ⟨⟨nofun, fun h => absurd hform h⟩, fun _ => rfl⟩
  | unknownName hnames => cases hnames
  | invalidValue hscale => exact absurd rfl hscale

/-- A bad value is reported in spite of the text behind its group, which is reported once
the value is right. -/
theorem readClause_error_is_leftmost_weekDay :
    ∃ value rest,
      (readClause " NOT hr {22-2} wd {mon 8-fri} xx".toList).outcome = .error value ∧
      Defect "not hr {22-2} wd {mon 8-fri} xx".toList value ∧
      (readClause " NOT hr {22-2} wd {mon 5-fri} xx".toList).outcome = .error rest ∧
      Defect "not hr {22-2} wd {mon 5-fri} xx".toList rest := by
  have hvalue : (readClause " NOT hr {22-2} wd {mon 8-fri} xx".toList).outcome =
      .error (.invalidValue .weekDay "8".toList) := by
    decide +kernel
  have hrest : (readClause " NOT hr {22-2} wd {mon 5-fri} xx".toList).outcome =
      .error (.malformed 28 " xx".toList) := by
    decide +kernel
  exact ⟨_, _, hvalue, (readClause_error_is_leftmost hvalue).1, hrest,
    (readClause_error_is_leftmost hrest).1⟩

end Timetable.Expression
