import Timetable.Text.Lowercase

/-!
# Lowercase texts

The lowercase form of a text has only characters that are their own lowercase
forms. For the letters of the table this is checked by runs: the forms of one
run lie apart from the letters of another, or alternate with them. Hence a text
that is cut from a lowercase one does not change in lowercase.
-/

namespace Timetable.Text

/-- The character is its own lowercase form. -/
def IsLowercase (c : Char) : Prop := lowercaseForm c = [c]

instance (c : Char) : Decidable (IsLowercase c) := inferInstanceAs (Decidable (_ = _))

/-! ## Forms of listed letters -/

namespace LetterRun

variable {run other : LetterRun} {n : Nat}

/-- The forms of the run are no letters of the other one. The two lie apart, or they have
the even and the odd code points of a common range. -/
def avoids (run other : LetterRun) : Bool :=
  Nat.blt (run.form run.last) other.first || Nat.blt other.last run.target ||
    ((run.first == run.last || run.step == 2) && other.step == 2 &&
      (run.target + other.first) % 2 == 1)

/-- The forms of the run are characters, none of them a capital ASCII letter or U+0130. -/
def formsAreSmall (run : LetterRun) : Bool :=
  0x5A < run.target && (run.form run.last < 0x130 || 0x130 < run.target) &&
    (run.form run.last < 0xD800 || (0xDFFF < run.target && run.form run.last < 0x110000))

theorem form_mem_range (h : run.lists n = true) :
    run.target ≤ run.form n ∧ run.form n ≤ run.form run.last := by
  simp only [lists, Bool.and_eq_true, decide_eq_true_eq] at h
  unfold form
  omega

theorem lists_form_eq_false (h : run.avoids other = true) (hn : run.lists n = true) :
    other.lists (run.form n) = false := by
  obtain ⟨hlow, hhigh⟩ := form_mem_range hn
  apply Bool.eq_false_iff.mpr
  intro hother
  simp only [avoids, lists, Bool.or_eq_true, Bool.and_eq_true, Nat.blt_eq, beq_iff_eq,
    decide_eq_true_eq] at h hn hother
  obtain ⟨⟨hfirst, hlast⟩, heven⟩ := hother
  rcases h with (hbelow | habove) | ⟨⟨hsame, hstep⟩, hodd⟩
  · omega
  · omega
  · -- All forms of the run have the parity of the first one.
    rw [hstep] at heven
    have hparity : (run.form n - run.target) % 2 = 0 := by
      unfold form
      rcases hsame with hsingle | hstep
      · omega
      · rw [hstep] at hn
        omega
    omega

end LetterRun

theorem letterRuns_avoid :
    (letterRuns.all fun run => letterRuns.all fun other => run.avoids other) = true := by
  decide +kernel

theorem letterRuns_formsAreSmall : letterRuns.all LetterRun.formsAreSmall = true := by
  decide +kernel

/-! ## Characters -/

/-- A character that is neither a capital ASCII letter nor U+0130 and that no run lists is its
own lowercase form. -/
theorem isLowercase_of_unlisted {c : Char} (hcapital : ¬(0x41 ≤ c.toNat ∧ c.toNat ≤ 0x5A))
    (hdotted : c ≠ '\u0130') (hnone : ∀ run ∈ letterRuns, run.lists c.toNat = false) :
    IsLowercase c := by
  unfold IsLowercase lowercaseForm
  by_cases hascii : c.toNat < 0x80
  · have hlower : c.toLower = c := by
      apply dif_neg
      rintro ⟨hlow, hhigh⟩
      exact hcapital ⟨UInt32.le_iff_toNat_le.mp hlow, UInt32.le_iff_toNat_le.mp hhigh⟩
    rw [if_pos hascii, hlower]
  · have hfind : letterRuns.find? (fun run => run.lists c.toNat) = none := by
      apply List.find?_eq_none.mpr
      intro run hrun
      simp [hnone run hrun]
    rw [if_neg hascii, if_neg hdotted, hfind]

/-- The form of a listed letter is a character. -/
theorem toNat_ofNat_form {run : LetterRun} {n : Nat} (hrun : run ∈ letterRuns)
    (hn : run.lists n = true) : (Char.ofNat (run.form n)).toNat = run.form n := by
  have hsmall := List.all_eq_true.mp letterRuns_formsAreSmall run hrun
  simp only [LetterRun.formsAreSmall, Bool.and_eq_true, Bool.or_eq_true, decide_eq_true_eq]
    at hsmall
  obtain ⟨-, hchar⟩ := hsmall
  obtain ⟨hlow, hhigh⟩ := LetterRun.form_mem_range hn
  have hvalid : (run.form n).isValidChar := by
    rcases hchar with hchar | hchar
    · exact Or.inl (by omega)
    · exact Or.inr (by omega)
  calc
    (Char.ofNat (run.form n)).toNat = (Char.ofNatAux (run.form n) hvalid).toNat :=
      congrArg Char.toNat (dif_pos hvalid)
    _ = run.form n := rfl

/-- The form of a listed letter is its own lowercase form. -/
theorem isLowercase_of_lists {run : LetterRun} {n : Nat} (hrun : run ∈ letterRuns)
    (hn : run.lists n = true) : IsLowercase (Char.ofNat (run.form n)) := by
  have hsmall := List.all_eq_true.mp letterRuns_formsAreSmall run hrun
  simp only [LetterRun.formsAreSmall, Bool.and_eq_true, Bool.or_eq_true, decide_eq_true_eq]
    at hsmall
  obtain ⟨⟨hcapital, hdotted⟩, -⟩ := hsmall
  obtain ⟨hlow, hhigh⟩ := LetterRun.form_mem_range hn
  have htoNat := toNat_ofNat_form hrun hn
  apply isLowercase_of_unlisted
  · rw [htoNat]
    omega
  · intro heq
    rw [heq, show ('\u0130').toNat = 0x130 from rfl] at htoNat
    omega
  · intro other hother
    have havoid := List.all_eq_true.mp (List.all_eq_true.mp letterRuns_avoid run hrun) other hother
    rw [htoNat]
    exact LetterRun.lists_form_eq_false havoid hn

theorem isLowercase_of_mem_lowercaseForm {c d : Char} (h : d ∈ lowercaseForm c) :
    IsLowercase d := by
  unfold lowercaseForm at h
  split at h
  · next hascii =>
      obtain rfl : d = c.toLower := List.mem_singleton.mp h
      have hall : ∀ n < 0x80, IsLowercase (Char.ofNat n).toLower := by decide
      simpa using hall c.toNat hascii
  · next hascii =>
      split at h
      · have hboth : (['i', '\u0307'].all fun d => IsLowercase d) = true := by decide +kernel
        simpa using List.all_eq_true.mp hboth d h
      · next hdotted =>
          split at h
          · next run hfind =>
              obtain rfl := List.mem_singleton.mp h
              have hlists : run.lists c.toNat = true := by simpa using List.find?_some hfind
              exact isLowercase_of_lists (List.mem_of_find?_eq_some hfind) hlists
          · next hfind =>
              obtain rfl := List.mem_singleton.mp h
              apply isLowercase_of_unlisted
              · omega
              · exact hdotted
              · intro run hrun
                exact Bool.eq_false_iff.mpr (List.find?_eq_none.mp hfind run hrun)

/-! ## Texts -/

theorem isLowercase_of_mem_lowercaseAfter {t : Text} {afterCased : Bool} {c : Char}
    (h : c ∈ lowercaseAfter afterCased t) : IsLowercase c := by
  induction t generalizing afterCased with
  | nil => exact absurd h List.not_mem_nil
  | cons d rest ih =>
      rw [lowercaseAfter, List.mem_append] at h
      rcases h with h | h
      · split at h
        · have hfinal : IsLowercase 'ς' := by decide +kernel
          have hmedial : IsLowercase 'σ' := by decide +kernel
          rw [List.mem_singleton.mp h, lowercaseSigma]
          split
          · exact hfinal
          · exact hmedial
        · exact isLowercase_of_mem_lowercaseForm h
      · exact ih h

theorem lowercaseAfter_eq_self {t : Text} (h : ∀ c ∈ t, IsLowercase c) (afterCased : Bool) :
    lowercaseAfter afterCased t = t := by
  induction t generalizing afterCased with
  | nil => rfl
  | cons c rest ih =>
      obtain ⟨hc, hrest⟩ := List.forall_mem_cons.mp h
      have hsigma : c ≠ 'Σ' := by
        rintro rfl
        revert hc
        decide +kernel
      rw [lowercaseAfter, ih hrest, if_neg hsigma, hc, List.singleton_append]

/-- A text that is cut from a lowercase one does not change in lowercase. -/
theorem lowercase_eq_self {s t : Text} (h : ∀ c ∈ s, c ∈ lowercase t) : lowercase s = s := by
  apply lowercaseAfter_eq_self
  intro c hc
  exact isLowercase_of_mem_lowercaseAfter (h c hc)

end Timetable.Text
