import Timetable.Proofs.Machine.Values
import Timetable.Proofs.Text.Divider
import Timetable.Schedule.Text

/-!
# Scanning clauses by byte offsets

A clause is scanned from a position on, one group each round. The position is
always the byte count of what has been scanned, so it is a boundary between
characters, and a round moves it behind the next closing brace. The groups found
are the pieces between closing braces, and where no group is found the rest of
the clause is left over.
-/

namespace Timetable

namespace Machine

open Expression (Group negations dropNegation)

/-- The scale that is spelled at the start of a text, with its longest spelling. -/
def spelling? (t : Text) : Option (Scale × Text) :=
  Scale.spellings.find? fun entry => entry.2.isPrefixOf t

/-- The byte offset at which a character is found first. -/
def offset? (c : Char) (t : Text) : Option Nat :=
  if c ∈ t then some (Text.byteLength (t.takeWhile (· != c))) else none

/-- A group at the start of a text, and the number of bytes up to its end. -/
structure Scanned where
  group : Group
  consumed : Nat

/-- Scans a group at the start of a text. -/
def scanGroup (input : Text) : Checked (Option Scanned) :=
  match spelling? input with
  | none => .ok none
  | some (scale, spelling) => do
    let rest ← sliceFrom input (Text.byteLength spelling)
    match Text.trimStart (Group.dropPlural rest) with
    | '\x7b' :: rest =>
      match offset? '\x7d' rest with
      | none => .ok none
      | some close => do
        let body ← sliceTo rest close
        let opened ← subtract (Text.byteLength input) (Text.byteLength rest)
        pure (some ⟨⟨scale, Text.trim body⟩, opened + close + 1⟩)
    | _ => .ok none

/-- The position behind a negation and the blanks that follow it, or behind the blanks at
the start; tells whether there is a negation. -/
def skipNegation (expression : Text) : Checked (Nat × Bool) := do
  let trimmed := Text.trimStart expression
  let leading ← subtract (Text.byteLength expression) (Text.byteLength trimmed)
  match negations.findSome? fun negation => negation.isPrefixOf? trimmed with
  | none => pure (leading, false)
  | some rest => do
    let position ←
      subtract (Text.byteLength expression) (Text.byteLength (Text.trimStart rest))
    pure (position, true)

/-- How a round ends: with the whole clause scanned, or behind one more group. -/
inductive Round where
  | finished (period : Period)
  | moved (position : Nat) (period : Period)

/-- Scans the next group, unless some group was found and only blanks are left. -/
def round (expression : Text) (position : Nat) (period : Period) (found : Bool) :
    Checked Round := do
  let rest ← sliceFrom expression position
  let token := Text.trimStart rest
  if token.isEmpty && found then pure (.finished period)
  else do
    let scanned? ← scanGroup token
    match scanned? with
    | none => .error (.refused (.malformed position rest))
    | some scanned => do
      let spans ← readSpans scanned.group.scale scanned.group.body
      let skipped ← subtract (Text.byteLength rest) (Text.byteLength token)
      pure (.moved (position + (skipped + scanned.consumed))
        (period.constrain scanned.group.scale spans))

/-- Scans groups until a round finishes. A round has to move on, within the clause. -/
def scan (expression : Text) (position : Nat) (period : Period) (found : Bool) :
    Checked Period :=
  match round expression position period found with
  | .error stop => .error stop
  | .ok (.finished period) => .ok period
  | .ok (.moved next period) =>
    if position < next ∧ next ≤ Text.byteLength expression then scan expression next period true
    else .error (.fault .stalled)
termination_by Text.byteLength expression - position

/-- Reads one clause: its period and whether that is negated. -/
def readClause (t : Text) : Checked (Period × Bool) := do
  let expression := Text.lowercase (Text.trim t)
  let start ← skipNegation expression
  let period ← scan expression start.1 .unconstrained false
  pure (period, start.2)

/-! ## Groups -/

/-- Entries whose spelling does not start the text are passed over. -/
theorem findSome?_eq_none {entries : List (Scale × Text)} {t : Text}
    (h : ∀ entry ∈ entries, ¬entry.2.isPrefixOf t = true) :
    (entries.findSome? fun entry =>
      (entry.2.isPrefixOf? t).map fun rest => (entry.1, rest)) = none := by
  apply List.findSome?_eq_none_iff.mpr
  intro entry hentry
  have hstart := h entry hentry
  rw [← List.isSome_isPrefixOf?_eq_isPrefixOf, Bool.not_eq_true, Option.isSome_eq_false_iff,
    Option.isNone_iff_eq_none] at hstart
  rw [hstart]
  rfl

theorem read?_eq_none {t : Text} (h : spelling? t = none) : Scale.read? t = none :=
  findSome?_eq_none (List.find?_eq_none.mp h)

/-- The spelling that is found is the one that a scale is read from. -/
theorem exists_append_of_spelling? {t spelling : Text} {scale : Scale}
    (h : spelling? t = some (scale, spelling)) :
    ∃ rest, t = spelling ++ rest ∧ Scale.read? t = some (scale, rest) := by
  obtain ⟨hstart, before, after, hsplit, hbefore⟩ := List.find?_eq_some_iff_append.mp h
  obtain ⟨rest, rfl⟩ := List.isPrefixOf_iff_prefix.mp hstart
  have hnone := findSome?_eq_none (t := spelling ++ rest) fun entry hentry hearlier => by
    have hother := hbefore entry hentry
    rw [hearlier] at hother
    cases hother
  have hfound : spelling.isPrefixOf? (spelling ++ rest) = some rest :=
    List.isPrefixOf?_eq_some_iff_append_eq.mpr rfl
  refine ⟨rest, rfl, ?_⟩
  rw [Scale.read?, hsplit, List.findSome?_append, hnone, List.findSome?_cons, hfound]
  rfl

/-- A text goes on with a closing brace, or not at all. -/
def ClosesNext (tail : Text) : Prop := ∀ c ∈ tail.head?, c = '\x7d'

theorem closesNext_brace {rest : Text} : ClosesNext ('\x7d' :: rest) := fun _ hc =>
  (Option.some.inj hc).symm

/-- A closing brace is no part of a spelling. -/
theorem spelling?_append (t : Text) {tail : Text} (h : ClosesNext tail) :
    spelling? (t ++ tail) = spelling? t := by
  unfold spelling?
  rw [← List.head?_filter, ← List.head?_filter]
  apply congrArg List.head?
  apply List.filter_congr
  intro entry hentry
  rw [Bool.eq_iff_iff, List.isPrefixOf_iff_prefix, List.isPrefixOf_iff_prefix]
  refine ⟨fun hstart => ?_, fun hstart => hstart.trans (List.prefix_append t tail)⟩
  cases tail with
  | nil => rwa [List.append_nil] at hstart
  | cons c rest =>
      obtain rfl := h c rfl
      have hbrace := Scale.brace_notMem_spelling hentry
      have hcut : t ++ ['\x7d'] <+: t ++ '\x7d' :: rest := ⟨rest, by simp⟩
      rcases List.prefix_or_prefix_of_prefix hstart hcut with hshort | hlong
      · rcases List.prefix_concat_iff.mp hshort with hall | hinside
        · exact absurd (hall ▸ List.mem_append_right t List.mem_cons_self) hbrace
        · exact hinside
      · exact absurd (hlong.subset (List.mem_append_right t List.mem_cons_self)) hbrace

theorem dropPlural_append (t : Text) {tail : Text} (h : ClosesNext tail) :
    Group.dropPlural (t ++ tail) = Group.dropPlural t ++ tail := by
  cases t with
  | nil =>
      apply Expression.dropPlural_of_head
      intro c hc
      rw [h c hc]
      decide
  | cons c rest =>
      by_cases hc : c = 's'
      · subst hc
        rfl
      · have hhead : ∀ tail : Text, ∀ d ∈ (c :: tail).head?, d ≠ 's' := by
          rintro tail d ⟨⟩
          exact hc
        rw [List.cons_append, Expression.dropPlural_of_head (hhead _),
          Expression.dropPlural_of_head (hhead _)]
        rfl

theorem trimStart_append (t : Text) {tail : Text} (h : ClosesNext tail) :
    Text.trimStart (t ++ tail) = Text.trimStart t ++ tail := by
  have hstop : Text.trimStart tail = tail := by
    cases tail with
    | nil => rfl
    | cons c rest =>
        obtain rfl := h c rfl
        rfl
  unfold Text.trimStart at hstop ⊢
  rw [List.dropWhile_append]
  split
  · next hnil => rw [List.isEmpty_iff.mp hnil, hstop, List.nil_append]
  · rfl

theorem offset?_of_notMem {c : Char} {t : Text} (h : c ∉ t) : offset? c t = none := if_neg h

theorem offset?_append {c : Char} {t : Text} (rest : Text) (h : c ∉ t) :
    offset? c (t ++ c :: rest) = some (Text.byteLength t) := by
  have hall : ∀ d ∈ t, (d != c) = true := by
    intro d hd
    rw [bne_iff_ne]
    rintro rfl
    exact h hd
  rw [offset?, if_pos (List.mem_append_right t List.mem_cons_self),
    List.takeWhile_append_of_pos hall, List.takeWhile_cons_of_neg (by simp), List.append_nil]

/-- What is left behind a plural ending and blanks is the end of the text. -/
theorem opening_suffix (t : Text) : Text.trimStart (Group.dropPlural t) <:+ t := by
  obtain ⟨plural, -, hplural⟩ := Expression.exists_plural t
  obtain ⟨gap, -, hgap⟩ := Text.exists_gap_trimStart (Group.dropPlural t)
  refine ⟨plural ++ gap, ?_⟩
  rw [List.append_assoc, ← hgap]
  exact hplural.symm

theorem notMem_of_opening {c d : Char} {t body : Text}
    (h : Text.trimStart (Group.dropPlural t) = d :: body) (hc : c ∉ t) : c ∉ body := by
  intro hmem
  apply hc
  apply (opening_suffix t).subset
  rw [h]
  exact List.mem_cons_of_mem d hmem

theorem trimStart_trimStart (t : Text) : Text.trimStart (Text.trimStart t) = Text.trimStart t :=
  List.dropWhile_idempotent Text.isBlank t

/-- Without a closing brace there is no group. -/
theorem scanGroup_eq_none {t : Text} (h : '\x7d' ∉ t) : scanGroup t = .ok none := by
  unfold scanGroup
  cases hspelling : spelling? t with
  | none => rfl
  | some entry =>
      obtain ⟨scale, spelling⟩ := entry
      obtain ⟨opened, rfl, -⟩ := exists_append_of_spelling? hspelling
      simp only [sliceFrom_append, ok_bind]
      split
      · next body hopening =>
          have hclosed : '\x7d' ∉ opened := fun hmem => h (List.mem_append_right spelling hmem)
          rw [offset?_of_notMem (notMem_of_opening hopening hclosed)]
      · rfl

/-- In front of a closing brace the group is scanned that the text forms. -/
theorem scanGroup_append {t : Text} (rest : Text) (hbrace : '\x7d' ∉ t)
    (htrim : Text.trimStart t = t) :
    scanGroup (t ++ '\x7d' :: rest) =
      .ok ((Group.ofText? t).map fun group => ⟨group, Text.byteLength t + 1⟩) := by
  have hcloses := @closesNext_brace rest
  unfold scanGroup Group.ofText?
  rw [spelling?_append t hcloses, htrim]
  cases hspelling : spelling? t with
  | none =>
      rw [read?_eq_none hspelling]
      rfl
  | some entry =>
      obtain ⟨scale, spelling⟩ := entry
      obtain ⟨opened, rfl, hread⟩ := exists_append_of_spelling? hspelling
      have hclosed : '\x7d' ∉ opened := fun hmem => hbrace (List.mem_append_right spelling hmem)
      simp only [hread, List.append_assoc, sliceFrom_append, ok_bind,
        dropPlural_append opened hcloses, trimStart_append _ hcloses]
      cases hopening : Text.trimStart (Group.dropPlural opened) with
      | nil => rfl
      | cons c body =>
          by_cases hc : c = '\x7b'
          · subst hc
            have hbody := notMem_of_opening hopening hclosed
            obtain ⟨front, hfront⟩ := opening_suffix opened
            rw [hopening] at hfront
            subst hfront
            have hinput : spelling ++ (front ++ '\x7b' :: body ++ '\x7d' :: rest) =
                (spelling ++ (front ++ ['\x7b'])) ++ (body ++ '\x7d' :: rest) := by simp
            have hlength : Text.byteLength (spelling ++ (front ++ '\x7b' :: body)) =
                Text.byteLength (spelling ++ (front ++ ['\x7b'])) + Text.byteLength body := by
              rw [← Text.byteLength_append]
              simp
            simp only [List.cons_append, offset?_append rest hbody, sliceTo_append, ok_bind]
            rw [hinput, subtract_append, hlength]
            rfl
          · have hother : ∀ body' rest' : Text, c :: body' ≠ '\x7b' :: rest' := by
              rintro body' rest' ⟨⟩
              exact hc rfl
            split
            · next heq => exact absurd heq (hother _ _)
            · split
              · next heq => exact absurd heq (hother _ _)
              · rfl

theorem notMem_trimStart {c : Char} {t : Text} (h : c ∉ t) : c ∉ Text.trimStart t := fun hmem =>
  h ((List.dropWhile_suffix Text.isBlank).subset hmem)

/-- A group in front of a closing brace is scanned behind any blanks. -/
theorem scanGroup_trimStart_append {t : Text} (rest : Text) (hbrace : '\x7d' ∉ t) :
    scanGroup (Text.trimStart (t ++ '\x7d' :: rest)) =
      .ok ((Group.ofText? t).map fun group =>
        ⟨group, Text.byteLength (Text.trimStart t) + 1⟩) := by
  rw [trimStart_append t closesNext_brace,
    scanGroup_append rest (notMem_trimStart hbrace) (trimStart_trimStart t)]
  unfold Group.ofText?
  rw [trimStart_trimStart]

/-! ## Rounds -/

variable {front piece tail : Text} {period : Period} {found : Bool}

/-- With only blanks left behind some group the clause is scanned. -/
theorem round_finished (h : Text.IsGap tail) :
    round (front ++ tail) (Text.byteLength front) period true = .ok (.finished period) := by
  have hnil : Text.trimStart tail = [] := (Text.trimStart_eq_nil_iff tail).mpr h
  simp only [round, sliceFrom_append, ok_bind, hnil]
  rfl

/-- Where no group is scanned the clause is malformed. -/
theorem round_malformed (hscan : scanGroup (Text.trimStart tail) = .ok none)
    (hleft : ¬(Text.IsGap tail ∧ found = true)) :
    round (front ++ tail) (Text.byteLength front) period found =
      .error (.refused (.malformed (Text.byteLength front) tail)) := by
  have hrest : ¬((Text.trimStart tail).isEmpty && found) = true := by
    rwa [Bool.and_eq_true, List.isEmpty_iff, Text.trimStart_eq_nil_iff]
  simp only [round, sliceFrom_append, ok_bind, if_neg hrest, hscan]

/-- A group in front of a closing brace is read, and the position moves behind the brace. -/
theorem round_moved {group : Group} (hbrace : '\x7d' ∉ piece)
    (hgroup : Group.ofText? piece = some group) :
    round (front ++ (piece ++ '\x7d' :: tail)) (Text.byteLength front) period found =
      faultless ((Expression.readSpans group.scale group.body).outcome.map fun spans =>
        .moved (Text.byteLength (front ++ (piece ++ ['\x7d'])))
          (period.constrain group.scale spans)) := by
  obtain ⟨gap, -, hpiece⟩ := Text.exists_gap_trimStart piece
  have hscan := scanGroup_trimStart_append tail hbrace
  rw [trimStart_append piece closesNext_brace, hgroup] at hscan
  have hskip : subtract (Text.byteLength (piece ++ '\x7d' :: tail))
      (Text.byteLength (Text.trimStart piece ++ '\x7d' :: tail)) = .ok (Text.byteLength gap) := by
    rw [← subtract_append gap, ← List.append_assoc, ← hpiece]
  have hposition : Text.byteLength (front ++ (piece ++ ['\x7d'])) =
      Text.byteLength front +
        (Text.byteLength gap + (Text.byteLength (Text.trimStart piece) + 1)) := by
    have hlength := congrArg Text.byteLength hpiece
    have hbyte : Text.byteLength ['\x7d'] = 1 := rfl
    simp only [Text.byteLength_append] at hlength ⊢
    omega
  have hrest : ¬((Text.trimStart piece ++ '\x7d' :: tail).isEmpty && found) = true := by
    simp
  simp only [round, sliceFrom_append, ok_bind, trimStart_append piece closesNext_brace,
    if_neg hrest, hscan, Option.map_some, readSpans_eq, hskip, hposition]
  cases (Expression.readSpans group.scale group.body).outcome <;> rfl

/-! ## Runs -/

theorem scan_of_error {expression : Text} {position : Nat} {stop : Stop}
    (h : round expression position period found = .error stop) :
    scan expression position period found = .error stop := by
  rw [scan, h]

theorem scan_of_finished {expression : Text} {position : Nat} {result : Period}
    (h : round expression position period found = .ok (.finished result)) :
    scan expression position period found = .ok result := by
  rw [scan, h]

theorem scan_of_moved {expression : Text} {position next : Nat} {result : Period}
    (h : round expression position period found = .ok (.moved next result))
    (hlt : position < next) (hle : next ≤ Text.byteLength expression) :
    scan expression position period found = scan expression next result true := by
  rw [scan, h]
  exact if_pos ⟨hlt, hle⟩

theorem intercalate_brace_cons (piece next : Text) (rest : List Text) :
    ['\x7d'].intercalate (piece :: next :: rest) =
      piece ++ '\x7d' :: ['\x7d'].intercalate (next :: rest) := by
  rw [List.intercalate_cons_cons, List.append_assoc]
  rfl

/-- Reads the constraint of a group. -/
def readGroup (group : Group) : Except Error (Scale × List Span) :=
  (Expression.readSpans group.scale group.body).outcome.map fun spans => (group.scale, spans)

/-- What becomes of the constraints of all groups, with the text behind them. -/
def conclude (expression : Text) (period : Period) (found : Bool) (leftover : Text)
    (constraints : List (Scale × List Span)) : Except Error Period :=
  if found && leftover.all Text.isBlank then
    .ok (constraints.foldl (fun period c => period.constrain c.1 c.2) period)
  else
    .error (.malformed (Text.byteLength expression - Text.byteLength leftover) leftover)

/-- Where no further group is scanned, a run is over. -/
theorem scan_leftover (h : scanGroup (Text.trimStart tail) = .ok none) :
    scan (front ++ tail) (Text.byteLength front) period found =
      faultless (conclude (front ++ tail) period found tail []) := by
  unfold conclude
  by_cases hleft : Text.IsGap tail ∧ found = true
  · obtain ⟨hgap, rfl⟩ := hleft
    have hall : tail.all Text.isBlank = true := List.all_eq_true.mpr hgap
    rw [scan_of_finished (round_finished hgap), hall]
    rfl
  · rw [scan_of_error (round_malformed h hleft), if_neg, Text.byteLength_append,
      Nat.add_sub_cancel_right]
    · rfl
    · rwa [Bool.and_eq_true, List.all_eq_true, and_comm]

/-- From any position on, a run reads the leading groups of what is left. The induction is on
the pieces between closing braces, and each group moves the position behind its brace. -/
theorem scan_eq {pieces : List Text} (hne : pieces ≠ [])
    (hpieces : ∀ piece ∈ pieces, '\x7d' ∉ piece) (front : Text) (period : Period) (found : Bool) :
    scan (front ++ ['\x7d'].intercalate pieces) (Text.byteLength front) period found =
      faultless ((Group.leading pieces).1.mapM readGroup >>=
        conclude (front ++ ['\x7d'].intercalate pieces) period
          (found || !(Group.leading pieces).1.isEmpty)
          (['\x7d'].intercalate (Group.leading pieces).2)) := by
  fun_induction Group.leading pieces generalizing front period found with
  | case1 piece next rest group hgroup groups left heq ih =>
      obtain ⟨hpiece, hrest⟩ := List.forall_mem_cons.mp hpieces
      have hround : round (front ++ (piece ++ '\x7d' :: ['\x7d'].intercalate (next :: rest)))
          (Text.byteLength front) period found = _ := round_moved hpiece hgroup
      have hsplit : front ++ (piece ++ '\x7d' :: ['\x7d'].intercalate (next :: rest)) =
          (front ++ (piece ++ ['\x7d'])) ++ ['\x7d'].intercalate (next :: rest) := by simp
      have hlength : Text.byteLength (front ++ (piece ++ ['\x7d'])) =
          Text.byteLength front + Text.byteLength piece + 1 := by
        rw [Text.byteLength_append, Text.byteLength_append, Nat.add_assoc]
        rfl
      rw [intercalate_brace_cons, List.mapM_cons, readGroup]
      cases hread : (Expression.readSpans group.scale group.body).outcome with
      | error e =>
          rw [hread] at hround
          rw [scan_of_error hround]
          rfl
      | ok spans =>
          rw [hread] at hround
          have hnext := ih (List.cons_ne_nil next rest) hrest (front ++ (piece ++ ['\x7d']))
            (period.constrain group.scale spans) true
          rw [heq, ← hsplit] at hnext
          rw [scan_of_moved hround (by omega), hnext, List.isEmpty_cons, Bool.not_false,
            Bool.or_true, Bool.true_or]
          · cases groups.mapM readGroup <;> rfl
          · rw [hsplit, Text.byteLength_append (front ++ (piece ++ ['\x7d']))]
            exact Nat.le_add_right _ _
  | case2 piece next rest hnone =>
      obtain ⟨hpiece, -⟩ := List.forall_mem_cons.mp hpieces
      have hscan := scanGroup_trimStart_append (['\x7d'].intercalate (next :: rest)) hpiece
      rw [hnone, ← intercalate_brace_cons] at hscan
      rw [scan_leftover hscan, List.mapM_nil, List.isEmpty_nil, Bool.not_true, Bool.or_false]
      rfl
  | case3 pieces hshort =>
      obtain ⟨piece, rfl⟩ : ∃ piece, pieces = [piece] := by
        rcases pieces with _ | ⟨piece, _ | ⟨next, rest⟩⟩
        · exact absurd rfl hne
        · exact ⟨piece, rfl⟩
        · exact (hshort piece next rest rfl).elim
      have hpiece := hpieces piece List.mem_cons_self
      rw [List.intercalate_singleton, scan_leftover (scanGroup_eq_none (notMem_trimStart hpiece)),
        List.mapM_nil, List.isEmpty_nil, Bool.not_true, Bool.or_false]
      rfl

/-! ## Clauses -/

/-- The position behind a negation is the byte count of what dropping it takes away. -/
theorem exists_skipNegation {t : Text} (h : Text.trimStart t = t) :
    ∃ front, t = front ++ (dropNegation t).1 ∧
      skipNegation t = .ok (Text.byteLength front, (dropNegation t).2) := by
  have hnone : subtract (Text.byteLength t) (Text.byteLength t) = .ok 0 := subtract_append [] t
  unfold skipNegation dropNegation
  simp only [h, hnone, ok_bind]
  cases hfound : negations.findSome? fun negation => negation.isPrefixOf? t with
  | none => exact ⟨[], rfl, rfl⟩
  | some rest =>
      obtain ⟨negation, -, hstart⟩ := List.exists_of_findSome?_eq_some hfound
      obtain ⟨gap, -, hgap⟩ := Text.exists_gap_trimStart rest
      have ht : t = (negation ++ gap) ++ Text.trimStart rest := by
        rw [List.append_assoc, ← hgap]
        exact (List.append_eq_of_isPrefixOf?_eq_some hstart).symm
      refine ⟨negation ++ gap, ht, ?_⟩
      have hposition := subtract_append (negation ++ gap) (Text.trimStart rest)
      rw [← ht] at hposition
      simp only [hposition, ok_bind]
      rfl

theorem trimStart_lowercase_trim (t : Text) :
    Text.trimStart (Text.lowercase (Text.trim t)) = Text.lowercase (Text.trim t) := by
  have hhead := Text.head?_lowercase (Text.head?_trim t)
  cases hlower : Text.lowercase (Text.trim t) with
  | nil => rfl
  | cons c rest =>
      rw [hlower] at hhead
      exact Text.trimStart_of_head (hhead c rfl)

/-- Without its reports, a clause is read by reading its groups and then concluding. -/
theorem outcome_readClause (t : Text) :
    (Expression.readClause t).outcome = (do
      let clause := Expression.Clause.ofText (Text.lowercase (Text.trim t))
      let constraints ← clause.groups.mapM readGroup
      let period ← conclude (Text.lowercase (Text.trim t)) .unconstrained
        (!clause.groups.isEmpty) clause.leftover constraints
      pure (period, clause.negative)) := by
  have hgroups : (fun group : Group => (Expression.readSpans group.scale group.body).outcome >>=
      fun spans => (pure (group.scale, spans) : Logged Error _).outcome) = readGroup := by
    funext group
    unfold readGroup
    cases (Expression.readSpans group.scale group.body).outcome <;> rfl
  simp only [Expression.readClause, Logged.outcome_bind, Logged.outcome_traverse, hgroups]
  apply bind_congr
  intro constraints
  unfold conclude Expression.Clause.isComplete
  split <;> rfl

/-- Reading a clause never faults, and it reads what is read from its pieces. -/
theorem readClause_eq (t : Text) :
    readClause t = faultless (Expression.readClause t).outcome := by
  obtain ⟨front, hfront, hskip⟩ := exists_skipNegation (trimStart_lowercase_trim t)
  have hscan := scan_eq
    (List.splitOn_ne_nil '\x7d' (dropNegation (Text.lowercase (Text.trim t))).1)
    (fun piece hpiece => Text.notMem_of_mem_splitOn hpiece) front .unconstrained false
  rw [List.intercalate_splitOn, ← hfront] at hscan
  simp only [readClause, hskip, ok_bind, hscan, outcome_readClause, faultless_bind, bind_assoc]
  rfl

/-! ## Expressions -/

/-- Reads the schedule that an expression describes. -/
def parse (t : Text) : Checked Schedule := do
  let clauses ← (Expression.clauseTexts t).mapM readClause
  pure (Schedule.ofPeriods ((clauses.filter (!·.2)).map (·.1)) ((clauses.filter (·.2)).map (·.1)))

/-- Parsing never faults, and it yields what is parsed with numbers of any size. -/
theorem parse_eq (t : Text) : parse t = faultless (Schedule.parse t) := by
  have hclauses : (Expression.clauseTexts t).mapM readClause =
      faultless (Logged.traverse Expression.readClause (Expression.clauseTexts t)).outcome := by
    rw [Logged.outcome_traverse]
    exact mapM_eq_faultless fun piece _ => readClause_eq piece
  simp only [parse, hclauses, Schedule.parse, Expression.read, Logged.outcome_bind]
  cases (Logged.traverse Expression.readClause (Expression.clauseTexts t)).outcome <;> rfl

end Machine

end Timetable
