import Mathlib.Data.List.Basic
import Timetable.Proofs.Text.Names
import Timetable.Scale

/-!
# Reading spelled scales

A spelling at the start of a text is read back together with what follows it.
A name is always read as a whole. A code may be the start of a name, so what
follows it must not go on like one. The names of values are told apart in letters
of either case.
-/

namespace Timetable

namespace Scale

theorem mem_spellings {scale : Scale} {t : Text} :
    (scale, t) ∈ spellings ↔ t = scale.name ∨ t = scale.code := by
  simp [spellings, Scale.mem_all, eq_comm]

/-- Months and weekdays have names, short and long ones. -/
theorem areNames : ∀ names ∈ [monthNames, weekDayNames],
    Text.AreNames names.short ∧ Text.AreNames names.long := by decide +kernel

/-- The letters that spellings start with. -/
def initials : List Char := ['h', 'm', 's', 'w', 'y']

theorem exists_initial {scale : Scale} {spelling : Text} (h : (scale, spelling) ∈ spellings) :
    ∃ c ∈ initials, spelling.head? = some c := by
  rcases mem_spellings.mp h with rfl | rfl
  · cases scale <;> exact ⟨_, by decide, rfl⟩
  · cases scale <;> exact ⟨_, by decide, rfl⟩

theorem isBlank_of_mem_initials {c : Char} (h : c ∈ initials) : Text.isBlank c = false := by
  have hall : initials.all (fun c => !Text.isBlank c) = true := by decide
  simpa using List.all_eq_true.mp hall c h

theorem brace_notMem_spelling {scale : Scale} {spelling : Text}
    (h : (scale, spelling) ∈ spellings) : '\x7d' ∉ spelling := by
  have hall : ∀ entry ∈ spellings, '\x7d' ∉ entry.2 := by decide
  exact hall _ h

/-- The letters with which a name goes on where it starts with a code. -/
def afterCode : List Char := ['a', 'n', 'o', 'u']

theorem afterCode_of_append_eq_name {a b : Scale} {c : Char} {t : Text}
    (h : a.code ++ c :: t = b.name) : c ∈ afterCode := by
  have hall : ∀ a ∈ all, ∀ b ∈ all, a.code.isPrefixOf b.name = true →
      (b.name.drop a.code.length).head?.all afterCode.contains = true := by decide
  have hprefix : a.code.isPrefixOf b.name = true := by
    rw [List.isPrefixOf_iff_prefix, ← h]
    exact List.prefix_append _ _
  have hnext := hall a (mem_all a) b (mem_all b) hprefix
  rw [← h, List.drop_left] at hnext
  exact List.contains_iff_mem.mp hnext

theorem isBlank_of_mem_afterCode {c : Char} (h : c ∈ afterCode) : Text.isBlank c = false := by
  have hall : afterCode.all (fun c => !Text.isBlank c) = true := by decide
  simpa using List.all_eq_true.mp hall c h

theorem name_not_prefix_code (a b : Scale) : ¬b.name <+: a.code := by
  cases a <;> cases b <;> decide

theorem read?_name (scale : Scale) (rest : Text) :
    read? (scale.name ++ rest) = some (scale, rest) := by
  cases scale <;> rfl

/-- A code is read as such if the text behind it does not complete a name. -/
theorem read?_code (scale : Scale) {rest : Text} (hrest : ∀ c ∈ rest.head?, c ∉ afterCode) :
    read? (scale.code ++ rest) = some (scale, rest) := by
  have hname : ∀ entry ∈ all.map fun scale => (scale, scale.name),
      (entry.2.isPrefixOf? (scale.code ++ rest)).map (fun rest => (entry.1, rest)) = none := by
    intro entry hentry
    obtain ⟨other, -, rfl⟩ := List.mem_map.mp hentry
    apply Option.map_eq_none_iff.mpr
    apply Option.eq_none_iff_forall_ne_some.mpr
    intro u hu
    have heq := (List.append_eq_of_isPrefixOf?_eq_some hu).symm
    rcases List.append_eq_append_iff.mp heq with ⟨v, hv, hrest'⟩ | ⟨v, hv, -⟩
    · cases v with
      | nil => exact name_not_prefix_code scale other ⟨[], by simpa using hv⟩
      | cons c v => exact hrest c (by simp [hrest']) (afterCode_of_append_eq_name hv.symm)
    · exact name_not_prefix_code scale other ⟨v, hv.symm⟩
  have hcode : (all.map fun scale => (scale, scale.code)).findSome?
      (fun entry => (entry.2.isPrefixOf? (scale.code ++ rest)).map fun rest => (entry.1, rest)) =
      some (scale, rest) := by
    cases scale <;> rfl
  rw [read?, spellings, List.findSome?_append, List.findSome?_eq_none_iff.mpr hname, hcode]
  rfl

theorem read?_spelling {scale : Scale} {spelling rest : Text}
    (hspelling : (scale, spelling) ∈ spellings) (hrest : ∀ c ∈ rest.head?, c ∉ afterCode) :
    read? (spelling ++ rest) = some (scale, rest) := by
  rcases mem_spellings.mp hspelling with rfl | rfl
  · exact read?_name scale rest
  · exact read?_code scale hrest

theorem exists_spelling_of_read? {scale : Scale} {t rest : Text}
    (h : read? t = some (scale, rest)) :
    ∃ spelling, (scale, spelling) ∈ spellings ∧ t = spelling ++ rest := by
  obtain ⟨entry, hentry, hread⟩ := List.exists_of_findSome?_eq_some h
  obtain ⟨u, hu, heq⟩ := Option.map_eq_some_iff.mp hread
  obtain ⟨rfl, rfl⟩ := Prod.mk.inj heq
  exact ⟨entry.2, hentry, (List.append_eq_of_isPrefixOf?_eq_some hu).symm⟩

end Scale

end Timetable
