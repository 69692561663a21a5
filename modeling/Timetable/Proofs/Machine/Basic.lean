import Timetable.Error

/-!
# Computing with machine numbers

The values of a scale are numbers of 16 bits, and texts are cut at byte offsets. A
computation stops with a fault where a sum needs more bits, a difference of byte
counts falls below zero, an offset is no boundary between characters, or a loop
does not move on. Apart from that it yields a value or refuses its input. Sums of
byte counts are not checked by themselves, as a text is never cut behind its end.
-/

namespace Timetable

namespace Machine

/-- What must not happen to a computation, whatever its input. -/
inductive Fault where
  /-- A sum is no number of 16 bits. -/
  | overflow
  /-- More bytes are taken away than there are. -/
  | underflow
  /-- A text is cut outside of its bounds or within a character. -/
  | badOffset
  /-- A round of a loop leaves the position where it was, or behind the end. -/
  | stalled
deriving DecidableEq

/-- Why a computation stops without a value. -/
inductive Stop where
  | refused (e : Error)
  | fault (f : Fault)
deriving DecidableEq

/-- A computation that may fault. -/
abbrev Checked := Except Stop

variable {ε α β : Type}

/-- The computation that yields or refuses as given, so that it never faults. -/
def faultless (x : Except Error α) : Checked α := x.mapError .refused

/-- The sum of two numbers of 16 bits, if it is one. -/
def add16 (a b : Nat) : Checked Nat :=
  if a + b ≤ 65535 then .ok (a + b) else .error (.fault .overflow)

/-- The difference of two byte counts. -/
def subtract (a b : Nat) : Checked Nat :=
  if b ≤ a then .ok (a - b) else .error (.fault .underflow)

/-- Cuts a text at a byte offset. -/
def splitAt : Text → Nat → Checked (Text × Text)
  | t, 0 => .ok ([], t)
  | [], _ + 1 => .error (.fault .badOffset)
  | c :: rest, n + 1 =>
    if c.utf8Size ≤ n + 1 then do
      let parts ← splitAt rest (n + 1 - c.utf8Size)
      pure (c :: parts.1, parts.2)
    else .error (.fault .badOffset)

/-- The text from a byte offset on. -/
def sliceFrom (t : Text) (offset : Nat) : Checked Text := do
  let parts ← splitAt t offset
  pure parts.2

/-- The text up to a byte offset. -/
def sliceTo (t : Text) (offset : Nat) : Checked Text := do
  let parts ← splitAt t offset
  pure parts.1

/-! ## Steps -/

@[simp] theorem ok_bind (a : α) (f : α → Except ε β) : (Except.ok a >>= f) = f a := rfl

@[simp] theorem error_bind (e : ε) (f : α → Except ε β) : (Except.error e >>= f) = .error e := rfl

@[simp] theorem faultless_ok (a : α) : faultless (.ok a) = .ok a := rfl

@[simp] theorem faultless_error (e : Error) :
    (faultless (.error e) : Checked α) = .error (.refused e) := rfl

theorem faultless_bind (x : Except Error α) (f : α → Except Error β) :
    faultless (x >>= f) = faultless x >>= fun a => faultless (f a) := by
  cases x <;> rfl

theorem faultless_ne_fault (x : Except Error α) (f : Fault) : faultless x ≠ .error (.fault f) := by
  cases x with
  | ok a => exact fun h => nomatch h
  | error e => exact fun h => nomatch h

/-- A run over a list does not fault if none of its steps does. -/
theorem mapM_eq_faultless {step : α → Checked β} {plain : α → Except Error β} {entries : List α}
    (h : ∀ a ∈ entries, step a = faultless (plain a)) :
    entries.mapM step = faultless (entries.mapM plain) := by
  induction entries with
  | nil => rfl
  | cons a rest ih =>
      obtain ⟨ha, hrest⟩ := List.forall_mem_cons.mp h
      simp only [List.mapM_cons, ha, ih hrest, faultless_bind]
      rfl

theorem mapM_map {γ : Type} (step : α → Except ε β) (f : β → γ) (entries : List α) :
    (entries.mapM fun a => (step a).map f) = (entries.mapM step).map (List.map f) := by
  induction entries with
  | nil => rfl
  | cons a rest ih =>
      rw [List.mapM_cons, List.mapM_cons, ih]
      cases step a with
      | error e => rfl
      | ok b => cases rest.mapM step <;> rfl

/-- A run over a list yields what its steps do. -/
theorem mapM_eq_ok {step : α → Checked β} {plain : α → β} {entries : List α}
    (h : ∀ a ∈ entries, step a = .ok (plain a)) :
    entries.mapM step = .ok (entries.map plain) := by
  induction entries with
  | nil => rfl
  | cons a rest ih =>
      obtain ⟨ha, hrest⟩ := List.forall_mem_cons.mp h
      rw [List.mapM_cons, ha, ih hrest]
      rfl

theorem add16_of_le {a b : Nat} (h : a + b ≤ 65535) : add16 a b = .ok (a + b) := if_pos h

theorem subtract_of_le {a b : Nat} (h : b ≤ a) : subtract a b = .ok (a - b) := if_pos h

/-! ## Slices -/

theorem byteLength_cons (c : Char) (t : Text) :
    Text.byteLength (c :: t) = c.utf8Size + Text.byteLength t := rfl

theorem byteLength_eq_zero_iff (t : Text) : Text.byteLength t = 0 ↔ t = [] := by
  cases t with
  | nil => exact iff_of_true rfl rfl
  | cons c rest =>
      have hpos := c.utf8Size_pos
      rw [byteLength_cons]
      exact iff_of_false (by omega) (List.cons_ne_nil c rest)

/-- A text can be cut exactly behind each of its prefixes. -/
theorem splitAt_eq_ok_iff (t s u : Text) (offset : Nat) :
    splitAt t offset = .ok (s, u) ↔ t = s ++ u ∧ offset = Text.byteLength s := by
  fun_induction splitAt t offset generalizing s with
  | case1 t =>
      rw [eq_comm (a := 0), byteLength_eq_zero_iff, Except.ok.injEq, Prod.mk.injEq]
      constructor
      · rintro ⟨rfl, rfl⟩
        exact ⟨rfl, rfl⟩
      · rintro ⟨rfl, rfl⟩
        exact ⟨rfl, rfl⟩
  | case2 n =>
      refine iff_of_false (fun h => nomatch h) ?_
      rintro ⟨hnil, hoffset⟩
      obtain ⟨rfl, -⟩ := List.append_eq_nil_iff.mp hnil.symm
      cases hoffset
  | case3 c rest n hsize ih =>
      constructor
      · intro h
        cases hparts : splitAt rest (n + 1 - c.utf8Size) with
        | error stop =>
            rw [hparts] at h
            cases h
        | ok parts =>
            rw [hparts] at h
            obtain ⟨rfl, rfl⟩ := Prod.mk.inj (Except.ok.inj h)
            obtain ⟨hrest, hoffset⟩ := (ih parts.1).mp hparts
            rw [byteLength_cons, List.cons_append, ← hrest]
            exact ⟨rfl, by omega⟩
      · rintro ⟨ht, hoffset⟩
        cases s with
        | nil => cases hoffset
        | cons d s =>
            obtain ⟨rfl, hrest⟩ := List.cons.inj ht
            rw [byteLength_cons] at hoffset
            rw [(ih s).mpr ⟨hrest, by omega⟩]
            rfl
  | case4 c rest n hsize =>
      refine iff_of_false (fun h => nomatch h) ?_
      rintro ⟨ht, hoffset⟩
      cases s with
      | nil => cases hoffset
      | cons d s =>
          obtain ⟨rfl, -⟩ := List.cons.inj ht
          rw [byteLength_cons] at hoffset
          omega

example : splitAt "é!".toList 2 = .ok (['é'], ['!']) := rfl

example : splitAt "é!".toList 1 = .error (.fault .badOffset) := rfl

theorem sliceFrom_append (s u : Text) :
    sliceFrom (s ++ u) (Text.byteLength s) = .ok u := by
  rw [sliceFrom, (splitAt_eq_ok_iff _ s u _).mpr ⟨rfl, rfl⟩]
  rfl

/-- The bytes behind a prefix are counted off. -/
theorem subtract_append (s u : Text) :
    subtract (Text.byteLength (s ++ u)) (Text.byteLength u) = .ok (Text.byteLength s) := by
  rw [Text.byteLength_append, subtract_of_le (Nat.le_add_left _ _), Nat.add_sub_cancel]

theorem sliceTo_append (s u : Text) : sliceTo (s ++ u) (Text.byteLength s) = .ok s := by
  rw [sliceTo, (splitAt_eq_ok_iff _ s u _).mpr ⟨rfl, rfl⟩]
  rfl

end Machine

end Timetable
