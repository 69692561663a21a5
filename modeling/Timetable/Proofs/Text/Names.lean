import Timetable.Proofs.Text.Gap

/-!
# Names in letters of either case

A text spells a name of a list if it is this name up to the case of its letters. The names
themselves are small, so a text that spells one has letters only, and spells no other one.
-/

namespace Timetable.Text

/-! ## Letters -/

theorem isAlpha_iff_toNat (c : Char) :
    c.isAlpha = true ↔ (65 ≤ c.toNat ∧ c.toNat ≤ 90) ∨ (97 ≤ c.toNat ∧ c.toNat ≤ 122) := by
  change (decide (c.val ≥ 65 ∧ c.val ≤ 90) ||
    decide (c.val ≥ 97) && decide (c.val ≤ 122)) = true ↔ _
  simp [UInt32.le_iff_toNat_le]

theorem isDigit_eq_false_of_isAlpha {c : Char} (h : c.isAlpha = true) : c.isDigit = false := by
  apply Bool.eq_false_iff.mpr
  rw [Ne, isDigit_iff_toNat]
  have hletter := (isAlpha_iff_toNat c).mp h
  omega

theorem isAlpha_eq_false_of_isDigit {c : Char} (h : c.isDigit = true) : c.isAlpha = false := by
  apply Bool.eq_false_iff.mpr
  intro hletter
  rw [isDigit_eq_false_of_isAlpha hletter] at h
  cases h

/-- Neither digits nor letters are blanks. -/
theorem isBlank_eq_false_of_visible {c : Char} (h : c.isDigit = true ∨ c.isAlpha = true) :
    isBlank c = false := by
  apply Bool.eq_false_iff.mpr
  rw [isDigit_iff_toNat, isAlpha_iff_toNat] at h
  simp only [isBlank, Ne, Bool.or_eq_true, Bool.and_eq_true, decide_eq_true_eq, beq_iff_eq]
  omega

theorem isAlpha_of_toLower {c : Char} (h : c.toLower.isAlpha = true) : c.isAlpha = true := by
  by_cases hupper : c.val ≥ 'A'.val ∧ c.val ≤ 'Z'.val
  · exact Bool.or_eq_true_iff.mpr (Or.inl (decide_eq_true hupper))
  · rwa [show c.toLower = c from dif_neg hupper] at h

/-! ## Names -/

/-- The text is the name at the place of the list, in letters of either case. -/
def Spells (names : List Text) (i : Nat) (t : Text) : Prop :=
  ∃ name, names[i]? = some name ∧ equalsIgnoringCase name t = true

/-- The names have small letters, each at least one, and all of them differ. -/
structure AreNames (names : List Text) : Prop where
  ne_nil : ∀ name ∈ names, name ≠ []
  ofLetters : ∀ name ∈ names, ∀ c ∈ name, c.toLower = c ∧ c.isAlpha = true
  distinct : names.Nodup

instance (names : List Text) : Decidable (AreNames names) :=
  decidable_of_iff ((∀ name ∈ names, name ≠ []) ∧ (names.all fun name =>
      name.all fun c => decide (c.toLower = c) && c.isAlpha) = true ∧ names.Nodup)
    ⟨fun h => ⟨h.1, by simpa using h.2.1, h.2.2⟩,
      fun h => ⟨h.ne_nil, by simpa using h.ofLetters, h.distinct⟩⟩

theorem equalsIgnoringCase_iff (s t : Text) :
    equalsIgnoringCase s t = true ↔ s.map Char.toLower = t.map Char.toLower := beq_iff_eq

variable {names : List Text} {i : Nat} {t : Text}

/-- Names are small, so they are what their spellings are in small letters. -/
theorem AreNames.equalsIgnoringCase_iff (h : AreNames names) {name : Text}
    (hname : name ∈ names) : equalsIgnoringCase name t = true ↔ name = t.map Char.toLower := by
  have hsmall : name.map Char.toLower = name := by
    apply (List.map_congr_left fun c hc => (h.ofLetters name hname c hc).1).trans
    exact List.map_id name
  rw [Text.equalsIgnoringCase_iff, hsmall]

namespace Spells

theorem lt_length (h : Spells names i t) : i < names.length := by
  obtain ⟨_, hname, -⟩ := h
  exact (List.getElem?_eq_some_iff.mp hname).1

theorem map_toLower_mem (h : Spells names i t) (hnames : AreNames names) :
    t.map Char.toLower ∈ names := by
  obtain ⟨name, hname, heq⟩ := h
  have hmem := List.mem_of_getElem? hname
  rwa [← (hnames.equalsIgnoringCase_iff hmem).mp heq]

theorem isAlpha (h : Spells names i t) (hnames : AreNames names) {c : Char} (hc : c ∈ t) :
    c.isAlpha = true := by
  apply isAlpha_of_toLower
  exact (hnames.ofLetters _ (h.map_toLower_mem hnames) _ (List.mem_map_of_mem hc)).2

theorem ne_nil (h : Spells names i t) (hnames : AreNames names) : t ≠ [] := by
  rintro rfl
  exact hnames.ne_nil _ (h.map_toLower_mem hnames) rfl

theorem exists_cons (h : Spells names i t) (hnames : AreNames names) :
    ∃ c rest, t = c :: rest ∧ c.isAlpha = true := by
  obtain ⟨c, rest, rfl⟩ := List.exists_cons_of_ne_nil (h.ne_nil hnames)
  exact ⟨c, rest, rfl, h.isAlpha hnames List.mem_cons_self⟩

theorem length_eq (h : Spells names i t) (hnames : AreNames names) {length : Nat}
    (hlength : ∀ name ∈ names, name.length = length) : t.length = length := by
  simpa using hlength _ (h.map_toLower_mem hnames)

theorem startsWithLetter (h : Spells names i t) (hnames : AreNames names) (rest : Text) :
    ∀ c ∈ (t ++ rest).head?, c.isAlpha = true := by
  intro c hc
  rw [List.head?_append_of_ne_nil _ (h.ne_nil hnames)] at hc
  exact h.isAlpha hnames (List.mem_of_mem_head? hc)

/-- A spelled name is found at its own place. -/
theorem findIdx?_eq (h : Spells names i t) (hnames : AreNames names) :
    names.findIdx? (fun name => equalsIgnoringCase name t) = some i := by
  obtain ⟨name, hname, heq⟩ := h
  obtain ⟨hi, hget⟩ := List.getElem?_eq_some_iff.mp hname
  apply List.findIdx?_eq_some_iff_getElem.mpr
  refine ⟨hi, by rwa [hget], ?_⟩
  intro j hj hother
  have hboth : names[j] = names[i] := by
    calc
      names[j] = t.map Char.toLower :=
        (hnames.equalsIgnoringCase_iff (List.getElem_mem _)).mp hother
      _ = names[i] := by
        rw [hget]
        exact ((hnames.equalsIgnoringCase_iff (List.mem_of_getElem? hname)).mp heq).symm
  have hsame := (List.getElem_inj hnames.distinct).mp hboth
  omega

end Spells

/-- What is found in a list of names is spelled. -/
theorem spells_of_findIdx? (h : names.findIdx? (fun name => equalsIgnoringCase name t) = some i) :
    Spells names i t := by
  obtain ⟨hi, heq, -⟩ := List.findIdx?_eq_some_iff_getElem.mp h
  exact ⟨names[i], List.getElem?_eq_getElem hi, heq⟩

end Timetable.Text
