import Mathlib.Data.List.TakeWhile
import Timetable.Proofs.Text.Names
import Timetable.Proofs.Text.Printed
import Timetable.Timestamp.Pattern

/-!
# Reading numbers and names

Timestamps are rendered with numbers of two or four digits and with names of
three letters. A reader that meets such a piece at the front of a text yields
what it renders and leaves the rest; one that wants digits fails at once where
there are none.
-/

namespace Timetable.Timestamp

open Text

/-! ## Rendered numbers -/

/-- A number below 100 with two digits. -/
def twoDigits (n : Nat) : Text := [Nat.digitChar (n / 10), Nat.digitChar (n % 10)]

/-- A number below 10000 with four digits. -/
def fourDigits (n : Nat) : Text := twoDigits (n / 100) ++ twoDigits (n % 100)

theorem ofDigitChars_twoDigits {n : Nat} (h : n < 100) (before : Nat) :
    Nat.ofDigitChars 10 (twoDigits n) before = 100 * before + n := by
  have htens := Nat.toNat_digitChar_of_lt_ten (show n / 10 < 10 by omega)
  have hones := Nat.toNat_digitChar_of_lt_ten (show n % 10 < 10 by omega)
  rw [twoDigits, Nat.ofDigitChars_cons, Nat.ofDigitChars_cons, htens, hones]
  change 10 * (10 * before + (48 + n / 10 - 48)) + (48 + n % 10 - 48) = 100 * before + n
  omega

theorem toNat_twoDigits {n : Nat} (h : n < 100) : toNat (twoDigits n) = n := by
  rw [Text.toNat, ofDigitChars_twoDigits h, Nat.mul_zero, Nat.zero_add]

theorem toNat_fourDigits {n : Nat} (h : n < 10000) : toNat (fourDigits n) = n := by
  rw [Text.toNat, fourDigits, Nat.ofDigitChars_append, ofDigitChars_twoDigits (by omega),
    ofDigitChars_twoDigits (by omega)]
  omega

theorem isDigit_of_mem_twoDigits {n : Nat} (h : n < 100) {c : Char} (hc : c ∈ twoDigits n) :
    c.isDigit = true := by
  simp only [twoDigits, List.mem_cons, List.not_mem_nil, or_false] at hc
  rcases hc with rfl | rfl
  · rw [Nat.isDigit_digitChar, decide_eq_true_eq]
    omega
  · rw [Nat.isDigit_digitChar, decide_eq_true_eq]
    omega

theorem isDigit_of_mem_fourDigits {n : Nat} (h : n < 10000) {c : Char} (hc : c ∈ fourDigits n) :
    c.isDigit = true := by
  rcases List.mem_append.mp hc with hc | hc
  · exact isDigit_of_mem_twoDigits (by omega) hc
  · exact isDigit_of_mem_twoDigits (by omega) hc

/-- Every digit is the digit of a number. -/
theorem exists_digitChar {c : Char} (h : c.isDigit = true) : ∃ d < 10, c = Nat.digitChar d := by
  obtain ⟨hlow, hhigh⟩ := (isDigit_iff_toNat c).mp h
  have hlt : c.toNat - 48 < 10 := by omega
  refine ⟨c.toNat - 48, hlt, ?_⟩
  apply Char.toNat_inj.mp
  rw [Nat.toNat_digitChar_of_lt_ten hlt]
  omega

/-- Two digits render the number that they have as a value. -/
theorem twoDigits_toNat {ds : Text} (hdigits : ∀ c ∈ ds, c.isDigit = true)
    (hlength : ds.length = 2) : toNat ds < 100 ∧ twoDigits (toNat ds) = ds := by
  obtain ⟨a, b, rfl⟩ := List.length_eq_two.mp hlength
  obtain ⟨tens, htens, rfl⟩ := exists_digitChar (hdigits a List.mem_cons_self)
  obtain ⟨ones, hones, rfl⟩ :=
    exists_digitChar (hdigits b (List.mem_cons_of_mem _ List.mem_cons_self))
  have hlt : 10 * tens + ones < 100 := by omega
  have hrender : [Nat.digitChar tens, Nat.digitChar ones] = twoDigits (10 * tens + ones) := by
    have htensEq : (10 * tens + ones) / 10 = tens := by omega
    have honesEq : (10 * tens + ones) % 10 = ones := by omega
    rw [twoDigits, htensEq, honesEq]
  rw [hrender, toNat_twoDigits hlt]
  exact ⟨hlt, rfl⟩

/-- Four digits render the number that they have as a value. -/
theorem fourDigits_toNat {ds : Text} (hdigits : ∀ c ∈ ds, c.isDigit = true)
    (hlength : ds.length = 4) : toNat ds < 10000 ∧ fourDigits (toNat ds) = ds := by
  have hhighDigits : ∀ c ∈ ds.take 2, c.isDigit = true := fun c hc =>
    hdigits c (List.mem_of_mem_take hc)
  have hlowDigits : ∀ c ∈ ds.drop 2, c.isDigit = true := fun c hc =>
    hdigits c (List.mem_of_mem_drop hc)
  obtain ⟨hhigh, hhighEq⟩ := twoDigits_toNat hhighDigits (by simp [hlength])
  obtain ⟨hlow, hlowEq⟩ := twoDigits_toNat hlowDigits (by simp [hlength])
  have hlt : 100 * toNat (ds.take 2) + toNat (ds.drop 2) < 10000 := by omega
  have hrender : fourDigits (100 * toNat (ds.take 2) + toNat (ds.drop 2)) = ds := by
    have hhighDiv : (100 * toNat (ds.take 2) + toNat (ds.drop 2)) / 100 = toNat (ds.take 2) := by
      omega
    have hlowMod : (100 * toNat (ds.take 2) + toNat (ds.drop 2)) % 100 = toNat (ds.drop 2) := by
      omega
    rw [fourDigits, hhighDiv, hlowMod, hhighEq, hlowEq, List.take_append_drop]
  have hvalue := toNat_fourDigits hlt
  rw [hrender] at hvalue
  rw [hvalue]
  exact ⟨hlt, hrender⟩

/-- The text has the digits of a number at its front, at least `least` and at most `most` of
them. Digits that follow are only left where it may have no more of them. -/
inductive ShowsNumber (least most n : Nat) (rest : Text) : Text → Prop
  | intro {ds : Text} (hdigits : ∀ c ∈ ds, c.isDigit = true) (hleast : least ≤ ds.length)
      (hmost : ds.length ≤ most)
      (hstop : ds.length = most ∨ ∀ c ∈ rest.head?, c.isDigit = false) (hvalue : toNat ds = n) :
      ShowsNumber least most n rest (ds ++ rest)

theorem showsNumber_twoDigits {n : Nat} (h : n < 100) (rest : Text) :
    ShowsNumber 1 2 n rest (twoDigits n ++ rest) :=
  .intro (fun _ hc => isDigit_of_mem_twoDigits h hc) (Nat.le_succ 1) le_rfl (Or.inl rfl)
    (toNat_twoDigits h)

/-- The shortest text of a number has digits only. -/
theorem isDigit_of_mem_ofNat {n : Nat} {c : Char} (h : c ∈ ofNat n) : c.isDigit = true :=
  Nat.isDigit_of_mem_toDigits (by decide) (by decide) h

theorem length_ofNat_le {n : Nat} (h : n < 100) : (ofNat n).length ≤ 2 := by
  have hall : ∀ n < 100, (ofNat n).length ≤ 2 := by decide
  exact hall n h

/-- It shows the number where no digit follows. -/
theorem showsNumber_ofNat {n : Nat} {rest : Text} (h : n < 100)
    (hstop : ∀ c ∈ rest.head?, c.isDigit = false) : ShowsNumber 1 2 n rest (ofNat n ++ rest) :=
  .intro (fun _ hc => isDigit_of_mem_ofNat hc) (List.length_pos_of_ne_nil Nat.toDigits_ne_nil)
    (length_ofNat_le h) (Or.inr hstop) (toNat_ofNat n)

/-- A number starts with a digit. -/
theorem ShowsNumber.exists_isDigit {least most n : Nat} {rest t : Text}
    (h : ShowsNumber least most n rest t) (hleast : 0 < least) :
    ∃ c, t.head? = some c ∧ c.isDigit = true := by
  obtain ⟨hdigits, hle, -, -, -⟩ := h
  obtain ⟨c, ds, rfl⟩ :=
    List.exists_cons_of_ne_nil (List.ne_nil_of_length_pos (hleast.trans_le hle))
  exact ⟨c, rfl, hdigits c List.mem_cons_self⟩

/-! ## Rendered names -/

theorem areNames_months : AreNames Scale.monthNames.short := by decide

theorem areNames_weekDays : AreNames Scale.weekDayNames.short := by decide

theorem NamePart.areNames (part : NamePart) : AreNames part.names := by
  cases part with
  | half => decide
  | weekDay => exact areNames_weekDays
  | month => exact areNames_months

theorem length_months : ∀ name ∈ Scale.monthNames.short, name.length = 3 := by decide

theorem length_weekDays : ∀ name ∈ Scale.weekDayNames.short, name.length = 3 := by decide

theorem NamePart.length_names (part : NamePart) :
    ∀ name ∈ part.names, name.length = part.length := by
  cases part with
  | half => decide
  | weekDay => exact length_weekDays
  | month => exact length_months

/-! ## Readers -/

namespace Reader

variable {α β : Type} {first : Reader α} {second : α → Reader β} {t rest : Text}

/-- Steps that follow each other are read when the second one goes on where the first one
stops. -/
theorem bind_eq_some_iff {read : β × Text} :
    (first >>= second) t = some read ↔
      ∃ a rest, first t = some (a, rest) ∧ second a rest = some read := by
  change (first t).bind _ = some read ↔ _
  rw [Option.bind_eq_some_iff, Prod.exists]

theorem bind_of_some {a : α} (h : first t = some (a, rest)) :
    (first >>= second) t = second a rest := by
  change (first t).bind _ = _
  rw [h]
  rfl

theorem pure_eq_some_iff {a b : α} :
    (pure a : Reader α) t = some (b, rest) ↔ a = b ∧ t = rest := by
  change some (a, t) = some (b, rest) ↔ _
  rw [Option.some_inj, Prod.mk.injEq]

theorem guard_eq_some_iff {p : Prop} [Decidable p] {u : Unit} :
    (guard p : Reader Unit) t = some (u, rest) ↔ p ∧ t = rest := by
  by_cases h : p
  · rw [show (guard p : Reader Unit) = pure () from if_pos h, pure_eq_some_iff]
    simp [h]
  · rw [show (guard p : Reader Unit) = failure from if_neg h]
    change none = some (u, rest) ↔ _
    simp [h]

theorem literal_eq_some_iff {wanted : Text} {u : Unit} :
    literal wanted t = some (u, rest) ↔ t = wanted ++ rest := by
  rw [literal, Option.map_eq_some_iff]
  constructor
  · rintro ⟨_, hfront, ⟨⟩⟩
    exact (List.isPrefixOf?_eq_some_iff_append_eq.mp hfront).symm
  · rintro rfl
    exact ⟨rest, List.isPrefixOf?_eq_some_iff_append_eq.mpr rfl, rfl⟩

theorem oneOf_eq_some_iff {wanted : Char → Bool} {c : Char} :
    oneOf wanted t = some (c, rest) ↔ wanted c = true ∧ t = c :: rest := by
  cases t with
  | nil => simp [oneOf]
  | cons d tail =>
      rw [oneOf]
      split
      · next h =>
          rw [Option.some_inj, Prod.mk.injEq, List.cons_eq_cons]
          constructor
          · rintro ⟨rfl, rfl⟩
            exact ⟨h, rfl, rfl⟩
          · exact And.right
      · next h =>
          simp only [reduceCtorEq, List.cons_eq_cons, false_iff, not_and]
          rintro hc rfl
          exact absurd hc h

theorem blanks_eq_some_iff {u : Unit} :
    blanks t = some (u, rest) ↔
      ∃ gap, IsGap gap ∧ (∀ c ∈ rest.head?, isBlank c = false) ∧ t = gap ++ rest := by
  rw [blanks, Option.some_inj, Prod.mk.injEq]
  constructor
  · rintro ⟨-, rfl⟩
    obtain ⟨gap, hgap, ht⟩ := exists_gap_trimStart t
    exact ⟨gap, hgap, head?_trimStart t, ht⟩
  · rintro ⟨gap, hgap, hstop, rfl⟩
    refine ⟨rfl, ?_⟩
    rw [trimStart_gap_append hgap, trimStart_eq_self hstop]

theorem someBlanks_eq_some_iff {u : Unit} :
    someBlanks t = some (u, rest) ↔
      ∃ gap, gap ≠ [] ∧ IsGap gap ∧ (∀ c ∈ rest.head?, isBlank c = false) ∧ t = gap ++ rest := by
  cases t with
  | nil =>
      rw [someBlanks]
      constructor
      · rintro ⟨⟩
      · rintro ⟨gap, hne, -, -, ht⟩
        exact absurd (List.append_eq_nil_iff.mp ht.symm).1 hne
  | cons c tail =>
      have hblanks : blanks tail = some (u, rest) ↔ _ := blanks_eq_some_iff
      rw [someBlanks]
      split
      · next hc =>
          refine hblanks.trans ?_
          constructor
          · rintro ⟨gap, hgap, hstop, rfl⟩
            exact ⟨c :: gap, List.cons_ne_nil c gap, isGap_cons.mpr ⟨hc, hgap⟩, hstop, rfl⟩
          · rintro ⟨_ | ⟨d, gap⟩, hne, hgap, hstop, ht⟩
            · exact absurd rfl hne
            · obtain ⟨rfl, rfl⟩ := List.cons.inj ht
              exact ⟨gap, (isGap_cons.mp hgap).2, hstop, rfl⟩
      · next hc =>
          constructor
          · rintro ⟨⟩
          · rintro ⟨_ | ⟨d, gap⟩, hne, hgap, -, ht⟩
            · exact absurd rfl hne
            · obtain ⟨rfl, -⟩ := List.cons.inj ht
              exact absurd (isGap_cons.mp hgap).1 hc

/-! ### Digits -/

section Digits

variable {ds : Text} {least most n : Nat}

theorem takeWhile_isDigit (hds : ∀ c ∈ ds, c.isDigit = true)
    (hstop : ∀ c ∈ rest.head?, c.isDigit = false) :
    (ds ++ rest).takeWhile Char.isDigit = ds := by
  rw [List.takeWhile_append_of_pos hds]
  cases rest with
  | nil => rw [List.takeWhile_nil, List.append_nil]
  | cons c rest => rw [List.takeWhile_cons, hstop c rfl, if_neg Bool.false_ne_true, List.append_nil]

/-- Behind all digits at the front of a text no digit follows. -/
theorem head?_drop_takeWhile (t : Text) :
    ∀ c ∈ (t.drop (t.takeWhile Char.isDigit).length).head?, c.isDigit = false := by
  have hdrop : t.drop (t.takeWhile Char.isDigit).length = t.dropWhile Char.isDigit := by
    have hfront := List.prefix_iff_eq_append.mp (List.takeWhile_prefix (l := t) Char.isDigit)
    exact List.append_cancel_left (hfront.trans List.takeWhile_append_dropWhile.symm)
  intro c hc
  have hhead := List.head?_dropWhile_not Char.isDigit t
  rw [hdrop] at hc
  rw [Option.mem_def.mp hc] at hhead
  exact hhead

theorem digits_eq_some_iff :
    digits least t = some (ds, rest) ↔
      least ≤ ds.length ∧ (∀ c ∈ ds, c.isDigit = true) ∧
        (∀ c ∈ rest.head?, c.isDigit = false) ∧ t = ds ++ rest := by
  constructor
  · intro h
    rw [digits] at h
    split at h
    · next hleast =>
        cases h
        have hfront := List.prefix_iff_eq_append.mp (List.takeWhile_prefix (l := t) Char.isDigit)
        exact ⟨hleast, fun c hc => List.mem_takeWhile_imp hc, head?_drop_takeWhile t, hfront.symm⟩
    · cases h
  · rintro ⟨hleast, hds, hstop, rfl⟩
    rw [digits, takeWhile_isDigit hds hstop]
    simp only [hleast, if_true, List.drop_left]

theorem number_eq_some_iff :
    number least most t = some (n, rest) ↔ ShowsNumber least most n rest t := by
  have htake : (t.take most).takeWhile Char.isDigit = (t.takeWhile Char.isDigit).take most :=
    List.take_takeWhile.symm
  constructor
  · intro h
    rw [number, htake] at h
    split at h
    · next hleast =>
        cases h
        have hfront := List.prefix_iff_eq_append.mp
          ((List.take_prefix most _).trans (List.takeWhile_prefix (l := t) Char.isDigit))
        have hdigits : ∀ c ∈ (t.takeWhile Char.isDigit).take most, c.isDigit = true := fun c hc =>
          List.mem_takeWhile_imp (List.mem_of_mem_take hc)
        have hstop : ((t.takeWhile Char.isDigit).take most).length = most ∨
            ∀ c ∈ (t.drop ((t.takeWhile Char.isDigit).take most).length).head?,
              c.isDigit = false := by
          rcases Nat.lt_or_ge (t.takeWhile Char.isDigit).length most with hshort | hlong
          · right
            rw [List.take_of_length_le hshort.le]
            exact head?_drop_takeWhile t
          · exact Or.inl (List.length_take_of_le hlong)
        have hshows := ShowsNumber.intro hdigits hleast (List.length_take_le _ _) hstop rfl
        rwa [hfront] at hshows
    · cases h
  · rintro ⟨hdigits, hleast, hmost, hstop, rfl⟩
    rename_i ds
    have hfound : ((ds ++ rest).take most).takeWhile Char.isDigit = ds := by
      rcases hstop with hlength | hstop
      · rw [← hlength, List.take_left]
        exact List.takeWhile_eq_self_iff.mpr hdigits
      · rw [← List.take_takeWhile, takeWhile_isDigit hdigits hstop]
        exact List.take_of_length_le hmost
    rw [number, hfound]
    simp only [hleast, if_true, List.drop_left]

theorem number_two_eq_some_iff :
    number 2 2 t = some (n, rest) ↔ n < 100 ∧ t = twoDigits n ++ rest := by
  rw [number_eq_some_iff]
  constructor
  · rintro ⟨hdigits, hleast, hmost, -, rfl⟩
    obtain ⟨hlt, htwo⟩ := twoDigits_toNat hdigits (le_antisymm hmost hleast)
    exact ⟨hlt, by rw [htwo]⟩
  · rintro ⟨hn, rfl⟩
    exact .intro (fun _ hc => isDigit_of_mem_twoDigits hn hc) le_rfl le_rfl (Or.inl rfl)
      (toNat_twoDigits hn)

theorem number_four_eq_some_iff :
    number 4 4 t = some (n, rest) ↔ n < 10000 ∧ t = fourDigits n ++ rest := by
  rw [number_eq_some_iff]
  constructor
  · rintro ⟨hdigits, hleast, hmost, -, rfl⟩
    obtain ⟨hlt, hfour⟩ := fourDigits_toNat hdigits (le_antisymm hmost hleast)
    exact ⟨hlt, by rw [hfour]⟩
  · rintro ⟨hn, rfl⟩
    exact .intro (fun _ hc => isDigit_of_mem_fourDigits hn hc) le_rfl le_rfl (Or.inl rfl)
      (toNat_fourDigits hn)

end Digits

/-! ### Names -/

theorem name_eq_some_iff {length : Nat} {names : List Text} (hnames : AreNames names)
    (hlength : ∀ name ∈ names, name.length = length) {i : Nat} :
    name length names t = some (i, rest) ↔ ∃ text, Spells names i text ∧ t = text ++ rest := by
  rw [name, Option.map_eq_some_iff]
  constructor
  · rintro ⟨_, hfind, ⟨⟩⟩
    exact ⟨t.take length, spells_of_findIdx? hfind, (List.take_append_drop length t).symm⟩
  · rintro ⟨text, htext, rfl⟩
    have htextLength := htext.length_eq hnames hlength
    refine ⟨i, ?_, ?_⟩
    · rw [List.take_left' htextLength, htext.findIdx?_eq hnames]
    · rw [List.drop_left' htextLength]

theorem weekDayName_eq_some_iff {i : Nat} :
    name 3 Scale.weekDayNames.short t = some (i, rest) ↔
      ∃ text, Spells Scale.weekDayNames.short i text ∧ t = text ++ rest :=
  name_eq_some_iff areNames_weekDays length_weekDays

end Reader

end Timetable.Timestamp
