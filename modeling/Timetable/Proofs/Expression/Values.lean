import Mathlib.Data.List.TakeWhile
import Mathlib.Tactic.SplitIfs
import Timetable.Expression.Value
import Timetable.Proofs.Expression.Items
import Timetable.Proofs.Scale

/-!
# What written values stand for

Digits stand for their number, names for the value at their place, and hours may
carry a qualifier. Reading a value accepts exactly the texts that stand for a
number, which then lies in the domain of the scale; such texts have neither
blanks nor hyphens.
-/

namespace Timetable

/-- The value that the digits of a number are read for. -/
def Scale.reread (scale : Scale) (n : Nat) : Nat := if scale = .hour ∧ n = 0 then 24 else n

namespace Expression

/-- The text stands for the number where a value of the scale is expected. -/
inductive Denotes : Scale → Text → Nat → Prop
  | number {scale digits} (hscale : scale ≠ .hour) (hdigits : Text.isNumeral digits = true)
      (hlow : scale.lowest ≤ Text.toNat digits) (hhigh : Text.toNat digits ≤ scale.highest) :
      Denotes scale digits (Text.toNat digits)
  | name {scale names t i} (hnames : scale.valueNames? = some names)
      (hname : Text.Spells names.short i t ∨ Text.Spells names.long i t) :
      Denotes scale t (i + names.first)
  /-- A bare hour 0 is the end of the day. -/
  | endOfDay {digits} (hdigits : Text.isNumeral digits = true) (hzero : Text.toNat digits = 0) :
      Denotes .hour digits 24
  | bare {digits} (hdigits : Text.isNumeral digits = true) (hlow : 1 ≤ Text.toNat digits)
      (hhigh : Text.toNat digits ≤ 24) : Denotes .hour digits (Text.toNat digits)
  | unshifted {digits qualifier} (hqualifier : qualifier = "am".toList ∨ qualifier = "noon".toList)
      (hdigits : Text.isNumeral digits = true) (hlow : 1 ≤ Text.toNat digits)
      (hhigh : Text.toNat digits ≤ 12) : Denotes .hour (digits ++ qualifier) (Text.toNat digits)
  /-- Only `pm` shifts an hour, unless it is noon already. -/
  | shifted {digits} (hdigits : Text.isNumeral digits = true) (hlow : 1 ≤ Text.toNat digits)
      (hhigh : Text.toNat digits < 12) :
      Denotes .hour (digits ++ "pm".toList) (Text.toNat digits + 12)
  | midday {digits} (hdigits : Text.isNumeral digits = true) (hnoon : Text.toNat digits = 12) :
      Denotes .hour (digits ++ "pm".toList) 12

/-! ## Texts of values -/

theorem isNumeral_iff (t : Text) :
    Text.isNumeral t = true ↔ t ≠ [] ∧ ∀ c ∈ t, c.isDigit = true := by
  simp [Text.isNumeral]

/-- Digits and letters are neither blanks nor hyphens. -/
theorem isPart_of_visible {t : Text} (hne : t ≠ [])
    (h : ∀ c ∈ t, c.isDigit = true ∨ c.isAlpha = true) : IsPart t := by
  refine ⟨hne, fun c hc => ⟨Text.isBlank_eq_false_of_visible (h c hc), ?_⟩⟩
  rintro rfl
  exact absurd (h '-' hc) (by decide)

theorem isPart_of_digits {t : Text} (hne : t ≠ []) (h : ∀ c ∈ t, c.isDigit = true) :
    IsPart t := isPart_of_visible hne fun c hc => Or.inl (h c hc)

theorem IsPart.append {s t : Text} (hs : IsPart s) (ht : IsPart t) : IsPart (s ++ t) :=
  ⟨by simp [hs.1], List.forall_mem_append.mpr ⟨hs.2, ht.2⟩⟩

theorem mem_of_valueNames? {scale : Scale} {names : Scale.ValueNames}
    (h : scale.valueNames? = some names) :
    names ∈ [Scale.monthNames, Scale.weekDayNames] := by
  cases scale <;> simp_all [Scale.valueNames?]

/-- A text that spells a name has letters and nothing else. -/
theorem ne_nil_and_isAlpha_of_spells {names : Scale.ValueNames} {t : Text} {i : Nat}
    (h : names ∈ [Scale.monthNames, Scale.weekDayNames])
    (hname : Text.Spells names.short i t ∨ Text.Spells names.long i t) :
    t ≠ [] ∧ ∀ c ∈ t, c.isAlpha = true := by
  obtain ⟨hshort, hlong⟩ := Scale.areNames names h
  rcases hname with hname | hname
  · exact ⟨hname.ne_nil hshort, fun _ hc => hname.isAlpha hshort hc⟩
  · exact ⟨hname.ne_nil hlong, fun _ hc => hname.isAlpha hlong hc⟩

theorem isNumeral_eq_false_of_spells {names : Scale.ValueNames} {t : Text} {i : Nat}
    (h : names ∈ [Scale.monthNames, Scale.weekDayNames])
    (hname : Text.Spells names.short i t ∨ Text.Spells names.long i t) :
    Text.isNumeral t = false := by
  obtain ⟨hne, hletters⟩ := ne_nil_and_isAlpha_of_spells h hname
  obtain ⟨c, t, rfl⟩ := List.exists_cons_of_ne_nil hne
  have hletter := Text.isDigit_eq_false_of_isAlpha (hletters c List.mem_cons_self)
  simp [Text.isNumeral, hletter]

/-- A text that stands for a number can be an end of an interval. -/
theorem Denotes.isPart {scale : Scale} {t : Text} {n : Nat} (h : Denotes scale t n) :
    IsPart t := by
  have hnumeral : ∀ {digits : Text}, Text.isNumeral digits = true → IsPart digits := fun hd =>
    isPart_of_digits ((isNumeral_iff _).mp hd).1 ((isNumeral_iff _).mp hd).2
  cases h with
  | number _ hdigits => exact hnumeral hdigits
  | name hnames hname =>
      obtain ⟨hne, hletters⟩ := ne_nil_and_isAlpha_of_spells (mem_of_valueNames? hnames) hname
      exact isPart_of_visible hne fun c hc => Or.inr (hletters c hc)
  | endOfDay hdigits => exact hnumeral hdigits
  | bare hdigits => exact hnumeral hdigits
  | unshifted hqualifier hdigits =>
      refine (hnumeral hdigits).append ?_
      rcases hqualifier with rfl | rfl <;> decide
  | shifted hdigits => exact (hnumeral hdigits).append (by decide)
  | midday hdigits => exact (hnumeral hdigits).append (by decide)

/-- Values lie in the domain of their scale. -/
theorem Denotes.mem_domain {scale : Scale} {t : Text} {n : Nat} (h : Denotes scale t n) :
    scale.lowest ≤ n ∧ n ≤ scale.highest := by
  cases h with
  | number _ _ hlow hhigh => exact ⟨hlow, hhigh⟩
  | @name _ names _ i hnames hname =>
      have hlength : i < names.short.length ∨ i < names.long.length :=
        hname.imp Text.Spells.lt_length Text.Spells.lt_length
      cases scale <;> simp only [Scale.valueNames?, reduceCtorEq, Option.some.injEq] at hnames
      · subst hnames
        simp [Scale.monthNames] at hlength
        simp only [Scale.lowest, Scale.highest, Scale.monthNames]
        omega
      · subst hnames
        simp [Scale.weekDayNames] at hlength
        simp only [Scale.lowest, Scale.highest, Scale.weekDayNames]
        omega
  | endOfDay => decide
  | bare => simp only [Scale.lowest, Scale.highest]; omega
  | unshifted => simp only [Scale.lowest, Scale.highest]; omega
  | shifted => simp only [Scale.lowest, Scale.highest]; omega
  | midday => decide

/-! ## Reading values -/

theorem readNumeral_eq_ok_iff (scale : Scale) (t : Text) (n : Nat) :
    readNumeral scale t = .ok n ↔
      Text.isNumeral t = true ∧ scale.lowest ≤ Text.toNat t ∧ Text.toNat t ≤ scale.highest ∧
        Text.toNat t = n := by
  unfold readNumeral
  split
  · next h =>
      simp only [Bool.and_eq_true, decide_eq_true_eq] at h
      simp [h]
  · next h =>
      simp only [Bool.and_eq_true, decide_eq_true_eq, not_and] at h
      constructor
      · intro herror
        cases herror
      · rintro ⟨hdigits, hlow, hhigh, -⟩
        exact absurd hhigh (h ⟨hdigits, hlow⟩)

/-- Looking a name up gives its place in one of the two lists. -/
theorem value?_eq_some_iff {names : Scale.ValueNames} {t : Text} {n : Nat}
    (h : names ∈ [Scale.monthNames, Scale.weekDayNames]) :
    names.value? t = some n ↔
      ∃ i, (Text.Spells names.short i t ∨ Text.Spells names.long i t) ∧ i + names.first = n := by
  constructor
  · intro hvalue
    obtain ⟨i, hi, hn⟩ := Option.map_eq_some_iff.mp hvalue
    refine ⟨i, ?_, hn⟩
    rcases Option.or_eq_some_iff.mp hi with hshort | ⟨-, hlong⟩
    · exact Or.inl (Text.spells_of_findIdx? hshort)
    · exact Or.inr (Text.spells_of_findIdx? hlong)
  · rintro ⟨i, hi, rfl⟩
    have hall : ∀ names ∈ [Scale.monthNames, Scale.weekDayNames],
        ∀ entry ∈ names.short.zipIdx ++ names.long.zipIdx,
          names.value? entry.1 = some (entry.2 + names.first) := by decide +kernel
    obtain ⟨name, hname, hcase⟩ : ∃ name, (names.short[i]? = some name ∨
        names.long[i]? = some name) ∧ Text.equalsIgnoringCase name t = true := by
      rcases hi with ⟨name, hname, hcase⟩ | ⟨name, hname, hcase⟩
      · exact ⟨name, Or.inl hname, hcase⟩
      · exact ⟨name, Or.inr hname, hcase⟩
    -- A name is looked up by its letters alone, whatever their case.
    have hsame : names.value? t = names.value? name := by
      have hletters := (Text.equalsIgnoringCase_iff name t).mp hcase
      simp only [Scale.ValueNames.value?, Scale.placeOf?, Text.equalsIgnoringCase, hletters]
    rw [hsame]
    refine hall names h (name, i) (List.mem_append.mpr ?_)
    exact hname.imp List.mem_zipIdx_iff_getElem?.mpr List.mem_zipIdx_iff_getElem?.mpr

/-- What is written behind the digits of an hour. -/
def Qualifier.text : Qualifier → Text
  | bare => []
  | am => "am".toList
  | pm => "pm".toList
  | noon => "noon".toList

theorem Qualifier.ofText?_eq_some_iff (t : Text) (qualifier : Qualifier) :
    ofText? t = some qualifier ↔ t = qualifier.text := by
  constructor
  · intro h
    unfold ofText? at h
    split_ifs at h with hbare ham hpm hnoon
    · exact Option.some.inj h ▸ hbare
    · exact Option.some.inj h ▸ ham
    · exact Option.some.inj h ▸ hpm
    · exact Option.some.inj h ▸ hnoon
  · rintro rfl
    cases qualifier <;> decide

theorem takeWhile_isDigit_append_text {digits : Text} {qualifier : Qualifier}
    (hdigits : Text.isNumeral digits = true) :
    (digits ++ qualifier.text).takeWhile Char.isDigit = digits := by
  have hnone : qualifier.text.takeWhile Char.isDigit = [] := by
    cases qualifier <;> rfl
  rw [List.takeWhile_append_of_pos ((isNumeral_iff digits).mp hdigits).2, hnone, List.append_nil]

theorem dropWhile_isDigit_append_text {digits : Text} {qualifier : Qualifier}
    (hdigits : Text.isNumeral digits = true) :
    (digits ++ qualifier.text).dropWhile Char.isDigit = qualifier.text := by
  rw [List.dropWhile_append_of_pos ((isNumeral_iff digits).mp hdigits).2]
  cases qualifier <;> rfl

/-- An hour is read as digits with a qualifier that goes with their number. -/
theorem readHour_eq_ok_iff (t : Text) (n : Nat) :
    readHour t = .ok n ↔
      ∃ digits qualifier, Text.isNumeral digits = true ∧ t = digits ++ Qualifier.text qualifier ∧
        qualifier.hour? (Text.toNat digits) = some n := by
  constructor
  · intro h
    simp only [readHour] at h
    split at h
    · cases h
    · next qualifier hq =>
        split at h
        · cases h
        · next hne =>
            split at h
            · next hour hhour =>
                obtain rfl := Except.ok.inj h
                refine ⟨_, qualifier, (isNumeral_iff _).mpr ⟨hne, ?_⟩, ?_, hhour⟩
                · exact fun c hc => List.mem_takeWhile_imp hc
                · rw [← (Qualifier.ofText?_eq_some_iff _ _).mp hq]
                  exact List.takeWhile_append_dropWhile.symm
            · cases h
  · rintro ⟨digits, qualifier, hdigits, rfl, hhour⟩
    have hne := ((isNumeral_iff digits).mp hdigits).1
    have hq := (Qualifier.ofText?_eq_some_iff _ qualifier).mpr rfl
    simp [readHour, takeWhile_isDigit_append_text hdigits, dropWhile_isDigit_append_text hdigits,
      hq, hne, hhour]

theorem readHour_eq_ok_iff_denotes (t : Text) (n : Nat) :
    readHour t = .ok n ↔ Denotes .hour t n := by
  rw [readHour_eq_ok_iff]
  constructor
  · rintro ⟨digits, qualifier, hdigits, rfl, hhour⟩
    cases qualifier with
    | bare =>
        simp only [Qualifier.text, List.append_nil, Qualifier.hour?] at hhour ⊢
        split at hhour
        · next hzero =>
            obtain rfl := Option.some.inj hhour
            exact Denotes.endOfDay hdigits hzero
        · next hzero =>
            obtain ⟨hle, hn⟩ := Option.ite_none_right_eq_some.mp hhour
            obtain rfl := Option.some.inj hn
            exact Denotes.bare hdigits (Nat.one_le_iff_ne_zero.mpr hzero) hle
    | am =>
        obtain ⟨⟨hlow, hhigh⟩, hn⟩ := Option.ite_none_right_eq_some.mp hhour
        obtain rfl := Option.some.inj hn
        exact Denotes.unshifted (Or.inl rfl) hdigits hlow hhigh
    | noon =>
        obtain ⟨⟨hlow, hhigh⟩, hn⟩ := Option.ite_none_right_eq_some.mp hhour
        obtain rfl := Option.some.inj hn
        exact Denotes.unshifted (Or.inr rfl) hdigits hlow hhigh
    | pm =>
        simp only [Qualifier.hour?] at hhour
        split at hhour
        · next hlt =>
            obtain rfl := Option.some.inj hhour
            exact Denotes.shifted hdigits hlt.1 hlt.2
        · obtain ⟨hnoon, hn⟩ := Option.ite_none_right_eq_some.mp hhour
          obtain rfl := Option.some.inj hn
          exact Denotes.midday hdigits hnoon
  · intro h
    cases h with
    | number hscale => exact absurd rfl hscale
    | name hnames => cases hnames
    | endOfDay hdigits hzero =>
        exact ⟨t, .bare, hdigits, (List.append_nil t).symm, by simp [Qualifier.hour?, hzero]⟩
    | bare hdigits hlow hhigh =>
        refine ⟨t, .bare, hdigits, (List.append_nil t).symm, ?_⟩
        simp [Qualifier.hour?, Nat.one_le_iff_ne_zero.mp hlow, hhigh]
    | unshifted hqualifier hdigits hlow hhigh =>
        rcases hqualifier with rfl | rfl
        · exact ⟨_, .am, hdigits, rfl, by simp [Qualifier.hour?, hlow, hhigh]⟩
        · exact ⟨_, .noon, hdigits, rfl, by simp [Qualifier.hour?, hlow, hhigh]⟩
    | shifted hdigits hlow hhigh =>
        exact ⟨_, .pm, hdigits, rfl, by simp [Qualifier.hour?, hlow, hhigh]⟩
    | midday hdigits hnoon =>
        exact ⟨_, .pm, hdigits, rfl, by simp [Qualifier.hour?, hnoon]⟩

theorem readNamed_eq_ok_iff {scale : Scale} {names : Scale.ValueNames}
    (hnames : scale.valueNames? = some names) (t : Text) (n : Nat) :
    readNamed scale names t = .ok n ↔ Denotes scale t n := by
  have hmem := mem_of_valueNames? hnames
  have hscale : scale ≠ .hour := by
    rintro rfl
    cases hnames
  unfold readNamed
  by_cases hdigits : Text.isNumeral t = true
  · rw [if_pos hdigits, readNumeral_eq_ok_iff]
    constructor
    · rintro ⟨_, hlow, hhigh, rfl⟩
      exact Denotes.number hscale hdigits hlow hhigh
    · intro h
      cases h with
      | number _ _ hlow hhigh => exact ⟨hdigits, hlow, hhigh, rfl⟩
      | name hother hname =>
          rw [isNumeral_eq_false_of_spells (mem_of_valueNames? hother) hname] at hdigits
          cases hdigits
      | _ => exact absurd rfl hscale
  · rw [if_neg hdigits]
    trans names.value? t = some n
    · cases names.value? t <;> simp
    rw [value?_eq_some_iff hmem]
    constructor
    · rintro ⟨i, hname, rfl⟩
      exact Denotes.name hnames hname
    · intro h
      cases h with
      | number _ hnumeral => exact absurd hnumeral hdigits
      | name hother hname =>
          obtain rfl := Option.some.inj (hnames.symm.trans hother)
          exact ⟨_, hname, rfl⟩
      | _ => exact absurd rfl hscale

/-- A value is read exactly from the texts that stand for it. -/
theorem readValue_eq_ok_iff (scale : Scale) (t : Text) (n : Nat) :
    readValue scale t = .ok n ↔ Denotes scale t n := by
  unfold readValue
  split
  · next hscale =>
      subst hscale
      exact readHour_eq_ok_iff_denotes t n
  · next hscale =>
      split
      · next names hnames => exact readNamed_eq_ok_iff hnames t n
      · next hnames =>
          rw [readNumeral_eq_ok_iff]
          constructor
          · rintro ⟨hdigits, hlow, hhigh, rfl⟩
            exact Denotes.number hscale hdigits hlow hhigh
          · intro h
            cases h with
            | number _ hdigits hlow hhigh => exact ⟨hdigits, hlow, hhigh, rfl⟩
            | name hother => exact absurd (hnames.symm.trans hother) (Option.some_ne_none _).symm
            | _ => exact absurd rfl hscale

/-- Digits stand for their number within the domain, and hour 0 for the end of the day. -/
theorem denotes_numeral_iff {scale : Scale} {t : Text} (ht : Text.isNumeral t = true) (m : Nat) :
    Denotes scale t m ↔
      (scale.lowest ≤ Text.toNat t ∧ Text.toNat t ≤ scale.highest) ∧
        m = scale.reread (Text.toNat t) := by
  constructor
  · intro h
    -- Letters behind the digits are no part of a numeral.
    have hletters : ∀ digits letters : Text, (∃ c ∈ letters, c.isDigit = false) →
        t ≠ digits ++ letters := by
      rintro digits letters ⟨c, hc, hletter⟩ heq
      have hdigit := ((isNumeral_iff _).mp ht).2 c (heq ▸ List.mem_append_right digits hc)
      rw [hletter] at hdigit
      cases hdigit
    cases h with
    | number hscale _ hlow hhigh =>
        exact ⟨⟨hlow, hhigh⟩, (if_neg fun hzero => hscale hzero.1).symm⟩
    | name hnames hname =>
        rw [isNumeral_eq_false_of_spells (mem_of_valueNames? hnames) hname] at ht
        cases ht
    | endOfDay _ hzero =>
        rw [hzero]
        exact ⟨by decide, rfl⟩
    | bare _ hlow hhigh =>
        refine ⟨⟨Nat.zero_le _, hhigh⟩, (if_neg fun hzero => ?_).symm⟩
        exact absurd hzero.2 (Nat.one_le_iff_ne_zero.mp hlow)
    | @unshifted digits qualifier hqualifier =>
        refine absurd rfl (hletters digits qualifier ?_)
        rcases hqualifier with rfl | rfl
        · exact ⟨'a', by decide, rfl⟩
        · exact ⟨'n', by decide, rfl⟩
    | shifted => exact absurd rfl (hletters _ _ ⟨'p', by decide, rfl⟩)
    | midday => exact absurd rfl (hletters _ _ ⟨'p', by decide, rfl⟩)
  · rintro ⟨⟨hlow, hhigh⟩, rfl⟩
    unfold Scale.reread
    split
    · next hzero =>
        obtain ⟨rfl, hzero⟩ := hzero
        exact Denotes.endOfDay ht hzero
    · next hzero =>
        by_cases hscale : scale = .hour
        · subst hscale
          have hpos := Nat.one_le_iff_ne_zero.mpr fun hn => hzero ⟨rfl, hn⟩
          exact Denotes.bare ht hpos hhigh
        · exact Denotes.number hscale ht hlow hhigh

/-- A text stands for at most one number. -/
theorem Denotes.unique {scale : Scale} {t : Text} {m n : Nat} (hm : Denotes scale t m)
    (hn : Denotes scale t n) : m = n := by
  have hok := ((readValue_eq_ok_iff scale t m).mpr hm).symm.trans
    ((readValue_eq_ok_iff scale t n).mpr hn)
  exact Except.ok.inj hok

end Expression

end Timetable
