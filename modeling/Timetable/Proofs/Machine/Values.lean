import Timetable.Proofs.Expression.Meaning
import Timetable.Proofs.Machine.Basic

/-!
# Reading values with machine numbers

A value is read into 16 bits, which its digits may exceed, and only then compared
with the domain of its scale. Since the domains end far below the largest number
of 16 bits, the afternoon hours, the places of names and the first value past a
span all fit, and the values read are those of numbers of any size.
-/

namespace Timetable

namespace Machine

open Expression (Qualifier Item)

/-- The number that some digits write, if it has 16 bits. -/
def number? (digits : Text) : Option Nat :=
  if Text.isNumeral digits && Text.toNat digits ≤ 65535 then some (Text.toNat digits) else none

/-- The hour of a number with a qualifier; only `pm` adds to it. -/
def qualifiedHour (t : Text) (qualifier : Qualifier) (n : Nat) : Checked Nat :=
  match qualifier with
  | .bare =>
    if 24 < n then .error (.refused (.hourNumber t))
    else if n = 0 then .ok 24
    else .ok n
  | .pm =>
    if n = 0 ∨ 12 < n then .error (.refused (.hourNumber t))
    else if n < 12 then add16 n 12
    else .ok n
  | .am | .noon => if n = 0 ∨ 12 < n then .error (.refused (.hourNumber t)) else .ok n

/-- Reads an hour, which is cut behind its leading digits, of one byte each. -/
def hourValue (t : Text) : Checked Nat :=
  let count := (t.takeWhile Char.isDigit).length
  if count = 0 then .error (.refused (.hourForm t))
  else do
    let parts ← splitAt t count
    match Qualifier.ofText? parts.2 with
    | none => .error (.refused (.hourForm t))
    | some qualifier =>
      match number? parts.1 with
      | none => .error (.refused (.hourNumber t))
      | some n => qualifiedHour t qualifier n

/-- Reads digits of any scale. -/
def numberValue (scale : Scale) (t : Text) : Checked Nat :=
  match number? t with
  | some n => .ok n
  | none => .error (.refused (.invalidValue scale t))

/-- Reads digits or a name, whose place is counted from the first value. -/
def nameValue (scale : Scale) (names : Scale.ValueNames) (t : Text) : Checked Nat :=
  if Text.isNumeral t then numberValue scale t
  else
    match (Scale.placeOf? names.short t).or (Scale.placeOf? names.long t) with
    | some index => add16 index names.first
    | none => .error (.refused (.unknownName scale t))

/-- The value, if it lies in the domain of its scale. -/
def inDomain (scale : Scale) (t : Text) (value : Nat) : Checked Nat :=
  if value < scale.lowest ∨ scale.highest < value then
    .error (.refused (.invalidValue scale t))
  else .ok value

/-- Reads a value of the scale. -/
def readValue (scale : Scale) (t : Text) : Checked Nat := do
  let value ←
    if scale = .hour then hourValue t
    else
      match scale.valueNames? with
      | some names => nameValue scale names t
      | none => numberValue scale t
  inDomain scale t value

/-- The first value past a span. -/
def limit (span : Span) : Checked Nat :=
  match span.boundary with
  | .inclusive => add16 span.stop 1
  | .exclusive => .ok span.stop

/-- The values of a span. -/
def values (span : Span) : Checked (List Nat) := do
  let limit ← limit span
  pure (List.range' span.start (limit - span.start))

/-- The values of an item; an interval that wraps around has those of its two parts. -/
def itemValues (scale : Scale) : Item Text → Checked (List Nat)
  | .single t => do
    let value ← readValue scale t
    pure [value]
  | .interval lowText highText => do
    let low ← readValue scale lowText
    let high ← readValue scale highText
    if high < low then do
      let front ← values ⟨scale.lowest, high, scale.boundary⟩
      let back ← values ⟨low, scale.highest, scale.boundary⟩
      pure (front ++ back)
    else values ⟨low, high, scale.boundary⟩

/-- The upper end of a span whose last value is given. -/
def runEnd (boundary : Boundary) (last : Nat) : Checked Nat :=
  match boundary with
  | .inclusive => .ok last
  | .exclusive => add16 last 1

/-- Goes on with a span that has reached from `start` to `last`: it ends where the next
value does not continue it. -/
def coalesceFrom (boundary : Boundary) (start last : Nat) : List Nat → Checked (List Span)
  | [] => do
    let stop ← runEnd boundary last
    pure [⟨start, stop, boundary⟩]
  | value :: rest => do
    let next ← add16 last 1
    if value = next then coalesceFrom boundary start value rest
    else do
      let stop ← runEnd boundary last
      let spans ← coalesceFrom boundary value value rest
      pure (⟨start, stop, boundary⟩ :: spans)

/-- The fewest spans for some values. -/
def coalesce (scale : Scale) (values : List Nat) : Checked (List Span) :=
  match ascending compare values with
  | [] => .ok []
  | first :: rest => coalesceFrom scale.boundary first first rest

/-- Reads the spans of a body. The years among them may not end with the domain. -/
def readSpans (scale : Scale) (body : Text) : Checked (List Span) := do
  let values ← (Expression.tokens body).mapM fun token => itemValues scale (Item.ofToken token)
  let spans ← coalesce scale values.flatten
  if scale = .year && spans.any fun span => span.stop == scale.highest then
    .error (.refused (.unboundedYears body))
  else pure spans

/-! ## Single values -/

theorem highest_le (scale : Scale) : scale.highest ≤ 9999 := by
  cases scale <;> decide

theorem number?_eq_some {t : Text} {n : Nat} (h : number? t = some n) :
    Text.isNumeral t = true ∧ Text.toNat t = n := by
  obtain ⟨hfits, hn⟩ := Option.ite_none_right_eq_some.mp h
  exact ⟨(Bool.and_eq_true_iff.mp hfits).1, Option.some.inj hn⟩

theorem number?_of_isNumeral {t : Text} (h : Text.isNumeral t = true) :
    number? t = if Text.toNat t ≤ 65535 then some (Text.toNat t) else none := by
  simp [number?, h]

/-- The hour of a number of 16 bits is that of a number of any size. -/
theorem qualifiedHour_eq (t : Text) (qualifier : Qualifier) (n : Nat) :
    qualifiedHour t qualifier n =
      faultless (match qualifier.hour? n with
        | some hour => .ok hour
        | none => .error (.hourNumber t)) := by
  cases qualifier with
  | bare =>
      simp only [qualifiedHour, Qualifier.hour?]
      split_ifs <;> first | rfl | omega
  | am =>
      simp only [qualifiedHour, Qualifier.hour?]
      split_ifs <;> first | rfl | omega
  | noon =>
      simp only [qualifiedHour, Qualifier.hour?]
      split_ifs <;> first | rfl | omega
  | pm =>
      simp only [qualifiedHour, Qualifier.hour?]
      by_cases hin : 1 ≤ n ∧ n < 12
      · rw [if_neg (by omega), if_pos hin.2, if_pos hin, add16_of_le (by omega)]
        rfl
      · by_cases hnoon : n = 12
        · rw [if_neg (by omega), if_neg (by omega), if_neg hin, if_pos hnoon, hnoon]
          rfl
        · rw [if_pos (by omega), if_neg hin, if_neg hnoon]
          rfl

/-- No hour has a number that does not fit. -/
theorem hour?_of_gt (qualifier : Qualifier) {n : Nat} (h : 65535 < n) :
    qualifier.hour? n = none := by
  cases qualifier <;> simp only [Qualifier.hour?] <;> split_ifs <;> first | rfl | omega

theorem byteLength_digits {t : Text} (h : ∀ c ∈ t, c.isDigit = true) :
    Text.byteLength t = t.length := by
  induction t with
  | nil => rfl
  | cons c rest ih =>
      obtain ⟨hc, hrest⟩ := List.forall_mem_cons.mp h
      have hrange := (Text.isDigit_iff_toNat c).mp hc
      have hsize : c.utf8Size = 1 := by
        rw [Char.utf8Size_eq_one_iff, UInt32.le_iff_toNat_le]
        change c.toNat ≤ 127
        omega
      rw [byteLength_cons, hsize, ih hrest, List.length_cons, Nat.add_comm]

theorem hourValue_eq (t : Text) : hourValue t = faultless (Expression.readHour t) := by
  have hcut : splitAt t (t.takeWhile Char.isDigit).length =
      .ok (t.takeWhile Char.isDigit, t.dropWhile Char.isDigit) := by
    apply (splitAt_eq_ok_iff _ _ _ _).mpr
    refine ⟨List.takeWhile_append_dropWhile.symm, ?_⟩
    exact (byteLength_digits fun c hc => List.mem_takeWhile_imp hc).symm
  simp only [hourValue, Expression.readHour, hcut, ok_bind, List.length_eq_zero_iff]
  cases hqualifier : Qualifier.ofText? (t.dropWhile Char.isDigit) with
  | none => simp only [ite_self, faultless_error]
  | some qualifier =>
      by_cases hne : t.takeWhile Char.isDigit = []
      · rw [if_pos hne]
        simp only [hne, if_true, faultless_error]
      · have hdigits : Text.isNumeral (t.takeWhile Char.isDigit) = true :=
          (Expression.isNumeral_iff _).mpr ⟨hne, fun c hc => List.mem_takeWhile_imp hc⟩
        rw [if_neg hne]
        simp only [hne, if_false, number?_of_isNumeral hdigits]
        by_cases hfits : Text.toNat (t.takeWhile Char.isDigit) ≤ 65535
        · rw [if_pos hfits]
          exact qualifiedHour_eq t qualifier _
        · rw [if_neg hfits, hour?_of_gt qualifier (Nat.lt_of_not_le hfits)]
          rfl

theorem inDomain_of_denotes {scale : Scale} {t : Text} {n : Nat}
    (h : Expression.Denotes scale t n) : inDomain scale t n = .ok n := by
  obtain ⟨hlow, hhigh⟩ := h.mem_domain
  exact if_neg (by omega)

theorem inDomain_of_not_mem {scale : Scale} {n : Nat} (t : Text)
    (h : ¬(scale.lowest ≤ n ∧ n ≤ scale.highest)) :
    inDomain scale t n = .error (.refused (.invalidValue scale t)) := if_pos (by omega)

/-- A number that does not fit is outside of the domain anyway. -/
theorem numberValue_bind_inDomain (scale : Scale) (t : Text) :
    (numberValue scale t >>= inDomain scale t) = faultless (Expression.readNumeral scale t) := by
  have hhighest := highest_le scale
  have hread := Expression.readNumeral_eq_ok_iff scale t
  by_cases hdomain : Text.isNumeral t = true ∧ scale.lowest ≤ Text.toNat t ∧
      Text.toNat t ≤ scale.highest
  · obtain ⟨hdigits, hlow, hhigh⟩ := hdomain
    rw [(hread _).mpr ⟨hdigits, hlow, hhigh, rfl⟩, numberValue, number?_of_isNumeral hdigits,
      if_pos (by omega)]
    exact if_neg (by omega)
  · have hinvalid : Expression.readNumeral scale t = .error (.invalidValue scale t) :=
      if_neg (by simpa [and_assoc] using hdomain)
    rw [hinvalid, numberValue]
    cases hnumber : number? t with
    | none => rfl
    | some n =>
        obtain ⟨hdigits, rfl⟩ := number?_eq_some hnumber
        exact inDomain_of_not_mem t fun hn => hdomain ⟨hdigits, hn⟩

/-- The place of a name, counted from the first value, is a number of 16 bits. -/
theorem nameValue_bind_inDomain {scale : Scale} {names : Scale.ValueNames}
    (h : scale.valueNames? = some names) (t : Text) :
    (nameValue scale names t >>= inDomain scale t) =
      faultless (Expression.readNamed scale names t) := by
  cases hdigits : Text.isNumeral t with
  | true =>
      rw [nameValue, Expression.readNamed, if_pos hdigits, if_pos hdigits]
      exact numberValue_bind_inDomain scale t
  | false =>
      have hread := Expression.readNamed_eq_ok_iff h t
      rw [Expression.readNamed, hdigits] at hread ⊢
      rw [nameValue, hdigits]
      simp only [Bool.false_eq_true, if_false, Scale.ValueNames.value?] at hread ⊢
      cases hplace : (Scale.placeOf? names.short t).or (Scale.placeOf? names.long t) with
      | none => rfl
      | some index =>
          rw [hplace] at hread
          have hdenotes := (hread (index + names.first)).mp rfl
          have hhighest := highest_le scale
          have hvalue := hdenotes.mem_domain.2
          simp only [add16_of_le (show index + names.first ≤ 65535 by omega), ok_bind]
          exact inDomain_of_denotes hdenotes

/-- Reading a value never faults, and it reads what is read with numbers of any size. -/
theorem readValue_eq (scale : Scale) (t : Text) :
    readValue scale t = faultless (Expression.readValue scale t) := by
  unfold readValue Expression.readValue
  by_cases hscale : scale = .hour
  · subst hscale
    simp only [if_true, hourValue_eq]
    cases hread : Expression.readHour t with
    | error e => rfl
    | ok n => exact inDomain_of_denotes ((Expression.readHour_eq_ok_iff_denotes t n).mp hread)
  · simp only [hscale, if_false]
    cases hnames : scale.valueNames? with
    | none => exact numberValue_bind_inDomain scale t
    | some names => exact nameValue_bind_inDomain hnames t

/-! ## Values of items -/

theorem limit_eq {span : Span} (h : span.limit ≤ 65535) : limit span = .ok span.limit := by
  unfold limit
  unfold Span.limit at h ⊢
  cases hboundary : span.boundary with
  | inclusive =>
      rw [hboundary] at h
      exact add16_of_le h
  | exclusive => rfl

theorem values_eq {span : Span} (h : span.limit ≤ 65535) : values span = .ok span.values := by
  rw [values, limit_eq h]
  rfl

theorem values_single (value : Nat) (boundary : Boundary) :
    (Span.single value boundary).values = [value] := by
  rw [Span.values, Span.start_single, Span.limit_single, Nat.add_sub_cancel_left]
  rfl

/-- Reports aside, an interval is read by reading its two ends. -/
theorem outcome_read_interval (scale : Scale) (lowText highText : Text) :
    (Item.read scale (.interval lowText highText)).outcome = (do
      let low ← Expression.readValue scale lowText
      let high ← Expression.readValue scale highText
      pure (.interval low high)) := by
  simp only [Item.read, Logged.outcome_bind, Logged.outcome_silent, Logged.outcome_report]
  cases Expression.readValue scale lowText with
  | error e => rfl
  | ok low =>
      cases Expression.readValue scale highText with
      | error e => rfl
      | ok high =>
          simp only [ok_bind]
          split <;> rfl

/-- The values of an item are those of its spans. -/
theorem itemValues_eq (scale : Scale) (item : Item Text) :
    itemValues scale item =
      faultless ((item.read scale).outcome.map fun ends =>
        (ends.spans scale).flatMap Span.values) := by
  cases item with
  | single t =>
      simp only [itemValues, Item.read, Logged.outcome_bind, Logged.outcome_silent, readValue_eq]
      cases Expression.readValue scale t with
      | error e => rfl
      | ok n =>
          change Except.ok [n] = Except.ok ((Span.single n scale.boundary).values ++ [])
          rw [values_single, List.append_nil]
  | interval lowText highText =>
      have hhighest := highest_le scale
      simp only [itemValues, outcome_read_interval, readValue_eq]
      cases hlow : Expression.readValue scale lowText with
      | error e => rfl
      | ok low =>
          cases hhigh : Expression.readValue scale highText with
          | error e => rfl
          | ok high =>
              have hends := Item.Denotes.interval
                ((Expression.readValue_eq_ok_iff scale lowText low).mp hlow)
                ((Expression.readValue_eq_ok_iff scale highText high).mp hhigh)
              have hvalues : ∀ span ∈ (Item.interval low high).spans scale,
                  values span = .ok span.values := by
                intro span hspan
                have hlimit := (hends.span_mem_domain hspan).2
                exact values_eq (by omega)
              change (if high < low then _ else _) =
                Except.ok (((Item.interval low high).spans scale).flatMap Span.values)
              by_cases hwraps : high < low
              · rw [Item.spans_of_lt hwraps] at hvalues ⊢
                rw [if_pos hwraps, hvalues _ List.mem_cons_self,
                  hvalues _ (List.mem_cons_of_mem _ List.mem_cons_self)]
                simp
              · rw [Item.spans_of_le (Nat.le_of_not_lt hwraps)] at hvalues ⊢
                rw [if_neg hwraps, hvalues _ List.mem_cons_self]
                simp

/-! ## Gathering values -/

theorem runEnd_eq (boundary : Boundary) {last : Nat} (h : last < 65535) :
    runEnd boundary last = .ok (Span.single last boundary).stop := by
  cases boundary with
  | inclusive => rfl
  | exclusive => exact add16_of_le h

/-- The first of the gathered spans starts at the first value. -/
theorem exists_ofAscending_cons (boundary : Boundary) (value : Nat) (rest : List Nat) :
    ∃ first more, Span.ofAscending boundary (value :: rest) = first :: more ∧
      first.start = value := by
  change ∃ first more, Span.addBelow boundary value (Span.ofAscending boundary rest) =
    first :: more ∧ first.start = value
  cases Span.ofAscending boundary rest with
  | nil => exact ⟨_, _, rfl, Span.start_single value boundary⟩
  | cons next more =>
      rw [Span.addBelow]
      split
      · exact ⟨_, _, rfl, rfl⟩
      · exact ⟨_, _, rfl, Span.start_single value boundary⟩

/-- From a given start on, values are gathered like from the last one on, but for the start
of the first span. -/
theorem coalesceFrom_eq (boundary : Boundary) (start last : Nat) {rest : List Nat}
    (h : ∀ v ∈ last :: rest, v < 65535) :
    coalesceFrom boundary start last rest =
      .ok ((Span.ofAscending boundary (last :: rest)).modifyHead
        fun span => { span with start := start }) := by
  induction rest generalizing start last with
  | nil =>
      rw [coalesceFrom, runEnd_eq boundary (h last List.mem_cons_self)]
      cases boundary <;> rfl
  | cons value rest ih =>
      obtain ⟨hlast, hrest⟩ := List.forall_mem_cons.mp h
      obtain ⟨first, more, hspans, hstart⟩ := exists_ofAscending_cons boundary value rest
      have hbelow : Span.ofAscending boundary (last :: value :: rest) =
          Span.addBelow boundary last (first :: more) := by
        rw [← hspans]
        rfl
      rw [coalesceFrom, add16_of_le hlast, ok_bind, hbelow, Span.addBelow, hstart]
      by_cases htouch : value = last + 1
      · rw [if_pos htouch, if_pos htouch.symm, ih start value hrest, hspans]
        rfl
      · rw [if_neg htouch, if_neg fun heq => htouch heq.symm, runEnd_eq boundary hlast,
          ih value value hrest, hspans]
        subst hstart
        cases boundary <;> rfl

/-- Gathering values never faults where each of them has a successor of 16 bits. -/
theorem coalesce_eq (scale : Scale) {values : List Nat} (h : ∀ v ∈ values, v < 65535) :
    coalesce scale values = .ok (Span.ofValues scale.boundary values) := by
  have hall : ∀ v ∈ ascending compare values, v < 65535 := fun v hv =>
    h v ((mem_ascending v values).mp hv)
  unfold coalesce Span.ofValues
  cases hvalues : ascending compare values with
  | nil => rfl
  | cons first rest =>
      rw [hvalues] at hall
      obtain ⟨span, more, hspans, hstart⟩ := exists_ofAscending_cons scale.boundary first rest
      subst hstart
      simp only [coalesceFrom_eq scale.boundary _ _ hall, hspans]
      rfl

example : coalesce .hour [65535] = .error (.fault .overflow) := rfl

/-- Listing the values of spans and putting them in order gives their distinct values. -/
theorem ascending_values (spans : List Span) :
    ascending compare (spans.flatMap Span.values) = Span.distinctValues spans := by
  symm
  apply Span.distinctValues_eq (Span.pairwise_ascending _)
  intro v
  simp only [mem_ascending, List.mem_flatMap, Span.anyCovers_iff, Span.mem_values]

/-- Gathered years reach the end of the domain when a span of theirs does. -/
theorem any_stop_eq {values : List Nat} (top : Nat) (h : ∀ v ∈ values, v ≤ top) :
    ((Span.ofAscending .inclusive values).any fun span => span.stop == top) =
      values.contains top := by
  rw [Bool.eq_iff_iff, List.any_eq_true, List.contains_iff_mem, ← Span.anyCovers_ofAscending
    .inclusive values top, Span.anyCovers_iff]
  constructor
  · rintro ⟨span, hspan, hstop⟩
    obtain ⟨hboundary, -, hpos⟩ := Span.wellFormed_ofAscending _ values span hspan
    have hlimit : span.limit = span.stop + 1 := by rw [Span.limit, hboundary]
    have hstop : span.stop = top := by simpa using hstop
    exact ⟨span, hspan, (Span.covers_iff span top).mpr ⟨by omega, by omega⟩⟩
  · rintro ⟨span, hspan, hcovers⟩
    obtain ⟨hboundary, -, hpos⟩ := Span.wellFormed_ofAscending _ values span hspan
    have hlimit : span.limit = span.stop + 1 := by rw [Span.limit, hboundary]
    obtain ⟨hstart, htop⟩ := (Span.covers_iff span top).mp hcovers
    -- The last value of the span is one of those gathered.
    have hlast : span.covers span.stop = true :=
      (Span.covers_iff span span.stop).mpr ⟨by omega, by omega⟩
    have hmem := (Span.anyCovers_ofAscending .inclusive values span.stop).mp
      ((Span.anyCovers_iff _ _).mpr ⟨span, hspan, hlast⟩)
    have hle := h span.stop hmem
    exact ⟨span, hspan, by simpa using (show span.stop = top by omega)⟩

/-! ## Bodies -/

/-- The values of items that have been read lie in the domain. -/
theorem le_highest_of_mem_values {scale : Scale} {texts : List (Item Text)}
    {items : List (Item Nat)} (h : List.Forall₂ (Item.Denotes scale) texts items) :
    ∀ v ∈ (items.flatMap (Item.spans scale)).flatMap Span.values, v ≤ scale.highest := by
  intro v hv
  obtain ⟨span, hspan, hv⟩ := List.mem_flatMap.mp hv
  obtain ⟨item, hitem, hspan⟩ := List.mem_flatMap.mp hspan
  obtain ⟨text, -, hdenotes⟩ := Pointwise.exists_left h hitem
  have hlimit := (hdenotes.span_mem_domain hspan).2
  have hlt := ((Span.covers_iff span v).mp ((Span.mem_values span v).mp hv)).2
  omega

/-- Listing the values of items and gathering them gives the spans of their values. -/
theorem coalesce_flatten_eq {scale : Scale} {texts : List (Item Text)} {items : List (Item Nat)}
    (h : List.Forall₂ (Item.Denotes scale) texts items) :
    coalesce scale (items.map fun ends => (ends.spans scale).flatMap Span.values).flatten =
      .ok (Span.ofAscending scale.boundary
        (Span.distinctValues (items.flatMap (Item.spans scale)))) := by
  have hhighest := highest_le scale
  have hle := le_highest_of_mem_values h
  rw [← List.flatMap_def, ← List.flatMap_assoc, coalesce_eq scale, Span.ofValues, ascending_values]
  intro v hv
  have hv := hle v hv
  omega

/-- The years of a body reach the end of the domain when a span of theirs does. -/
theorem reaches_end_eq {scale : Scale} {texts : List (Item Text)} {items : List (Item Nat)}
    (h : List.Forall₂ (Item.Denotes scale) texts items) :
    (scale = .year && (Span.ofAscending scale.boundary
        (Span.distinctValues (items.flatMap (Item.spans scale)))).any
          fun span => span.stop == scale.highest) =
      (scale = .year &&
        (Span.distinctValues (items.flatMap (Item.spans scale))).contains scale.highest) := by
  by_cases hscale : scale = .year
  · subst hscale
    apply congrArg (Bool.and _)
    apply any_stop_eq
    intro v hv
    rw [← ascending_values] at hv
    exact le_highest_of_mem_values h v ((mem_ascending v _).mp hv)
  · rw [decide_eq_false hscale, Bool.false_and, Bool.false_and]

/-- Reading a body never faults, and it reads what is read with numbers of any size. -/
theorem readSpans_eq (scale : Scale) (body : Text) :
    readSpans scale body = faultless (Expression.readSpans scale body).outcome := by
  have hitems : (Expression.tokens body).mapM (fun token => itemValues scale (Item.ofToken token)) =
      faultless ((Logged.traverse (fun token => (Item.ofToken token).read scale)
        (Expression.tokens body)).outcome.map (List.map fun ends =>
          (ends.spans scale).flatMap Span.values)) := by
    rw [mapM_eq_faultless fun token _ => itemValues_eq scale (Item.ofToken token), mapM_map,
      Logged.outcome_traverse]
  rw [readSpans, hitems, Expression.readSpans, Logged.outcome_bind]
  cases hread : (Logged.traverse (fun token => (Item.ofToken token).read scale)
    (Expression.tokens body)).outcome with
  | error e => rfl
  | ok items =>
      have hdenotes : List.Forall₂ (Item.Denotes scale)
          ((Expression.tokens body).map Item.ofToken) items := by
        apply List.forall₂_map_left_iff.mpr
        simpa only [Item.read_eq_ok_iff] using
          (Logged.outcome_traverse_eq_ok_iff _ _ items).mp hread
      simp only [Except.map, faultless_ok, ok_bind, coalesce_flatten_eq hdenotes,
        reaches_end_eq hdenotes, Logged.outcome_bind, Logged.outcome_report]
      split <;> rfl

end Machine

end Timetable
